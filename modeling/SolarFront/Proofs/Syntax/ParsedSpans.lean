import SolarFront.Proofs.Syntax.SpanStmts
import SolarFront.Proofs.Syntax.LexSpans
import SolarFront.Proofs.Syntax.Termination

/-!
# The spans of a parsed module nest

Every node the parser builds spans from a remembered start to the end of the last token read.
Read from the tokens of a text, the nodes reachable from a module's declarations therefore nest:
every span is a range inside the text; a node's children lie inside it, one after the other in
source order; a child of its parent's family never has its parent's span; and within each family
of nodes (expressions, types, statements, declarations) no two nodes share a span, so that a span
names a node.

The lexer lays its tokens out in order (`Lex.lex_inOrder`), so `Parser.spans` places every node a
grammar function returns. The declaration loop lays the module's declarations one after the other
(`Parser.parseDecls_places`), and the laws of `SpanTree.Nested` give the rest.
-/

set_option autoImplicit false
set_option linter.all false

namespace SolarFront

open SpanTree

/-! ## Nesting, node by node -/

namespace SpanTree

/-- Every node of a nested tree lies inside the tree's span. -/
theorem Nested.within : ∀ t : SpanTree, t.Nested →
    ∀ n ∈ t.nodes, t.span.start ≤ n.span.start ∧ n.span.stop ≤ t.span.stop := by
  intro t
  induction t with
  | node f sp cs ih =>
    intro h n hn
    rw [nodes_node, List.mem_cons] at hn
    rcases hn with rfl | hn
    · exact ⟨le_rfl, le_rfl⟩
    obtain ⟨c, hc, hn⟩ := List.mem_flatMap.1 hn
    -- inside the child, which lies inside the node
    have hcn := ih c hc (h.child hc) n hn
    have hc' := (h.encloses.inside c hc)
    simp only [span_node] at hc' ⊢
    omega

/-- A child of its parent's family has a span other than its parent's. -/
theorem Encloses.span_ne {t c : SpanTree} (h : t.Encloses) (hc : c ∈ t.children)
    (hF : c.family = t.family) : c.span ≠ t.span := by
  intro heq
  rcases h.proper c hc with hlt | hlt | ⟨hstmt, hdecl⟩
  · rw [heq] at hlt
    exact lt_irrefl _ hlt
  · rw [heq] at hlt
    exact lt_irrefl _ hlt
  · rw [hF, hstmt] at hdecl
    cases hdecl

end SpanTree

/-- The laws the spans of the syntax trees read from a text of `len` bytes obey: every node's
span is a range inside the text; a node's children lie inside it, one after the other in source
order; a child of its parent's family has a span other than its parent's; the trees themselves
follow one another; and within a family no two nodes share a span. -/
structure SpansNest (roots : List SpanTree) (len : Nat) : Prop where
  bounded : ∀ t ∈ roots, ∀ n ∈ t.nodes, n.span.start ≤ n.span.stop ∧ n.span.stop ≤ len
  inside : ∀ t ∈ roots, ∀ n ∈ t.nodes, ∀ c ∈ n.children,
    n.span.start ≤ c.span.start ∧ c.span.stop ≤ n.span.stop
  ordered : ∀ t ∈ roots, ∀ n ∈ t.nodes,
    (n.children.map span).Pairwise fun a b => a.stop ≤ b.start
  strict : ∀ t ∈ roots, ∀ n ∈ t.nodes, ∀ c ∈ n.children, c.family = n.family → c.span ≠ n.span
  apart : (roots.map span).Pairwise fun a b => a.stop ≤ b.start
  unique : ∀ F, (spansOf F roots).Nodup

/-- Nested trees laid one after the other inside a text obey the laws. -/
theorem SpansNest.of_nested {roots : List SpanTree} {len : Nat} (h : ∀ t ∈ roots, t.Nested)
    (hlen : ∀ t ∈ roots, t.span.stop ≤ len) (hroots : (roots.map span).Pairwise Before) :
    SpansNest roots len where
  bounded t ht n hn :=
    ⟨(h t ht n hn).range, ((Nested.within t (h t ht) n hn).2).trans (hlen t ht)⟩
  inside t ht n hn := (h t ht n hn).inside
  ordered t ht n hn := (h t ht n hn).apart.imp fun hab => hab.1
  strict t ht n hn _ hc := (h t ht n hn).span_ne hc
  apart := hroots.imp fun hab => hab.1
  unique F := Nested.nodup_spansOf F h hroots

/-! ## How the lexer lays its tokens out -/

/-- Tokens whose spans are ranges, nonempty before the last, and sorted, are laid out in order. -/
theorem InOrder.of_spans {tokens : Array Token}
    (hrange : ∀ t ∈ tokens.toList, t.span.start ≤ t.span.stop)
    (hne : ∀ t ∈ tokens.toList.dropLast, t.span.start < t.span.stop)
    (hsorted : (tokens.toList.map (·.span)).Pairwise fun a b => a.stop ≤ b.start) :
    InOrder tokens := by
  have hat : ∀ p (hp : p < tokens.size), spanAt tokens p = tokens[p].span := fun p hp => by
    simp [spanAt, hp]
  refine ⟨fun p => ?_, fun p hp => ?_, fun p q hpq hq => ?_⟩
  · by_cases hp : p < tokens.size
    · rw [hat p hp]
      exact hrange _ (Array.getElem_mem_toList hp)
    · simp [spanAt, hp, Span.dummy]
  · rw [hat p (by omega)]
    have hp' : p < tokens.toList.dropLast.length := by simp; omega
    simpa using hne _ (List.getElem_mem hp')
  · rw [hat p (by omega), hat q hq]
    have := List.pairwise_iff_getElem.1 hsorted p q (by simp; omega) (by simp; omega) hpq
    simpa using this

namespace Lex

variable (source : String) (ar : Bool)

/-- The tokens of a text end with the end of file. -/
theorem lex_endsWithEof : EndsWithEof (lex source ar).tokens.tokens := by
  have h := lex_last_eof source ar
  rw [List.getLast?_eq_getElem?, Array.length_toList, Array.getElem?_toList] at h
  simp [EndsWithEof, h]

/-- The lexer lays its tokens out in order: nonempty and sorted before the end of file, which is
the empty span at the end of the text. -/
theorem lex_inOrder : InOrder (lex source ar).tokens.tokens := by
  have hpiece : ∀ t ∈ (lex source ar).tokens.tokens.toList.dropLast,
      t.span.start < t.span.stop ∧ t.span.stop ≤ source.utf8ByteSize := fun t ht =>
    lex_pieces_within source ar t.span
      (List.mem_append_left _ (List.mem_append_left _ (List.mem_map_of_mem ht)))
  have hsplit : (lex source ar).tokens.tokens.toList =
      (lex source ar).tokens.tokens.toList.dropLast ++
        [⟨.eof, .point source.utf8ByteSize, .none⟩] := by
    rw [lex_tokens_dropLast]
    exact (lex_eq source ar).1
  refine InOrder.of_spans (fun t ht => ?_) (fun t ht => (hpiece t ht).1) ?_
  · rw [hsplit, List.mem_append, List.mem_singleton] at ht
    rcases ht with ht | rfl
    · exact (hpiece t ht).1.le
    · exact Nat.le_refl _
  · -- sorted before the end of file, and all of it ends before the end of the text
    rw [hsplit, List.map_append, List.pairwise_append]
    refine ⟨List.pairwise_map.2 (lex_tokens_sorted source ar), List.pairwise_singleton _ _, ?_⟩
    simp only [List.map_cons, List.map_nil, List.mem_singleton, List.mem_map]
    rintro _ ⟨t, ht, rfl⟩ _ rfl
    exact (hpiece t ht).2

/-- The last token of a text is the end of file, the empty span at the text's end. -/
theorem lastRead_lex :
    lastRead (lex source ar).tokens.tokens (lex source ar).tokens.tokens.size =
      Span.point source.utf8ByteSize := by
  have h := lex_last_eof source ar
  rw [List.getLast?_eq_getElem?, Array.length_toList, Array.getElem?_toList] at h
  obtain ⟨k, hk⟩ : ∃ k, (lex source ar).tokens.tokens.size = k + 1 :=
    ⟨_, (Nat.succ_pred_eq_of_pos (lex_endsWithEof source ar).size_pos).symm⟩
  rw [hk, Nat.add_sub_cancel] at h
  rw [hk, lastRead_succ, spanAt, h]
  rfl

end Lex

/-! ## The declarations of a module -/

namespace Parser

open ParseState

variable {toks : Array Token}

/-- A round of the declaration loop that parses a declaration places it in what it read. -/
theorem declAttempt_places (ho : InOrder toks) {s : ParseState} (hs : s.On toks)
    (heof : (peekAt s 0).kind ≠ .eof) :
    Wp declAttempt s fun a s' => ∀ d, a = .parsed d → Occupies toks s.pos d.spanTree s'.pos := by
  intro r s' hrun
  obtain ⟨a, rfl, hk, -⟩ := declAttempt_progress hs.inside heof hrun
  refine ⟨hk, fun a' ha' d hd => ?_⟩
  cases ha'
  subst hd
  rw [run_declAttempt] at hrun
  rcases hdecl : (parseDecl (declFuel s)).run.run s with ⟨r₁, s₁⟩
  rw [hdecl] at hrun
  cases r₁ with
  | ok d' =>
    cases hrun
    exact ((spans ho _).decl s hs _ _ hdecl).2 _ rfl
  | error e =>
    dsimp only at hrun
    split at hrun <;> cases hrun

/-- The declaration loop lays the declarations it parses one after the other, after those it was
handed. -/
theorem parseDecls_places (ho : InOrder toks) : ∀ (fuel : Nat) (acc : List Decl) (s : ParseState),
    s.On toks → LaidAll toks 0 (acc.reverse.map Decl.spanTree) s.pos →
    Wp (parseDecls fuel acc) s fun ds s' => LaidAll toks 0 (ds.map Decl.spanTree) s'.pos
  | 0, acc, s, hs, hacc => by
    simp only [parseDecls]
    exact Wp.pure hs.inside hacc
  | fuel + 1, acc, s, hs, hacc => by
    simp only [parseDecls]
    refine Wp.atEnd_bind hs.inside (Wp.ite (fun _ => Wp.pure hs.inside hacc) fun hend => ?_)
    have heof : (peekAt s 0).kind ≠ .eof := by simpa using hend
    refine Wp.bind ((declAttempt_places ho hs heof).mono fun a s₁ hk₁ ha => ?_)
    have hs₁ := hs.kept hk₁
    have hkept := hacc.widen ho le_rfl hk₁.pos (Nat.lt_of_le_of_lt (Nat.zero_le _) hs.lt) hs₁.lt.le
    cases a with
    | parsed d =>
      refine parseDecls_places ho fuel (d :: acc) s₁ hs₁ ?_
      rw [List.reverse_cons, List.map_append]
      exact LaidAll.append ho hacc (.single (ha d rfl).1) (Nat.zero_le _) le_rfl hk₁.pos hs.lt
        hs₁.lt
    | skipped => exact parseDecls_places ho fuel acc s₁ hs₁ hkept
    | stopped => exact Wp.pure hs₁.inside hkept

end Parser

/-- The declarations of a parsed token list, laid out in order, lie one after the other in the
tokens. -/
theorem parse_places (tokens : TokenList) (ho : InOrder tokens.tokens)
    (hend : EndsWithEof tokens.tokens) :
    LaidAll tokens.tokens 0 ((parse tokens).module.decls.map Decl.spanTree) tokens.tokens.size := by
  have hinit : ParseState.On tokens.tokens { tokens := tokens.tokens, comments := tokens.comments } :=
    ⟨⟨hend, hend.size_pos⟩, rfl⟩
  rcases hrun : (Parser.parseDecls (tokens.tokens.size + 1) []).run.run
    { tokens := tokens.tokens, comments := tokens.comments } with ⟨r, s'⟩
  obtain ⟨hk, hQ⟩ := Parser.parseDecls_places ho _ [] _ hinit LaidAll.nil r s' hrun
  simp only [parse, hrun]
  cases r with
  | ok ds => exact (hQ ds rfl).widen ho le_rfl (hinit.kept hk).lt.le hend.size_pos le_rfl
  | error e => exact LaidAll.nil

/-- The spans of a module parsed from the tokens of a text nest: every node reachable from its
declarations has a span inside the text; a node's children lie inside it, one after the other in
source order; a child of its parent's family never has its parent's span; the declarations follow
one another; and no two expressions, types, statements or declarations share a span. -/
theorem parse_spans_nest (source : String) (ar : Bool) :
    SpansNest ((parse (lex source ar).tokens).module.decls.map Decl.spanTree)
      source.utf8ByteSize := by
  have hplaced := parse_places _ (Lex.lex_inOrder source ar) (Lex.lex_endsWithEof source ar)
  refine SpansNest.of_nested (fun t ht => (hplaced.each t ht).nested) (fun t ht => ?_)
    hplaced.apart
  have := (hplaced.each t ht).stop
  rwa [Lex.lastRead_lex] at this

end SolarFront
