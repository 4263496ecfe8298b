import SolarFront.Proofs.Syntax.SpanExprs

/-!
# The nodes of the statement and declaration grammar lie where they were read

The steps of `Spans` for blocks, statements, initializers and declarations, and with them
`Parser.spans`: over tokens laid out in order, every grammar function places its nodes, at every
fuel.

A statement or a declaration starts at its first token, a label's name or a declaration's first
modifier, which a keyword statement and a declaration body are handed as a remembered start. The
declaration that a declaration statement holds is the one child that may span as much as its
parent; every other child starts after its parent's first token or ends before its last.
-/

set_option autoImplicit false
set_option linter.all false

namespace SolarFront

/-- Past a token that is not the end of file lies one; so the current one is not the end. -/
theorem ParseState.ne_eof_of_next {s : ParseState} {k : TokenKind}
    (h : (Parser.peekAt s.next 0).kind = k) (hk : k ≠ .eof) : (Parser.peekAt s 0).kind ≠ .eof :=
  fun he => hk (by rw [next_of_eof he, he] at h; exact h.symm)

namespace Parser

open ParseState SpanTree

section Steps

variable {β : Type} {toks : Array Token} {s : ParseState} {Q : β → ParseState → Prop}

/-- A statement node built after reading up to `s`, read from `p`. -/
theorem Wp.mkStmt_occupies {kind : StmtKind} {start : Span} {p : Nat} (hs : s.On toks)
    (h : Occupies toks p (.node .stmt (start.merge (lastRead toks s.pos)) kind.spanTrees) s.pos) :
    Wp (Parser.mkStmt kind start) s fun (st : Stmt) s' => Occupies toks p st.spanTree s'.pos :=
  Wp.mkStmt hs.inside fun st s' _ hpos hst => by
    show Occupies toks p st.spanTree s'.pos
    rw [hpos, hst, hs.tokens]
    exact h

/-- A statement node from a remembered start, read from any `p` whose token the start is. -/
theorem Wp.mkStmt_from {kind : StmtKind} {start : Span} {P : Nat → Prop} (hs : s.On toks)
    (h : ∀ p, P p → Occupies toks p
      (.node .stmt ((spanAt toks p).merge (lastRead toks s.pos)) kind.spanTrees) s.pos) :
    Wp (Parser.mkStmt kind start) s fun st s' =>
      ∀ p, P p → start = spanAt toks p → Occupies toks p st.spanTree s'.pos :=
  Wp.mkStmt hs.inside fun _ _ _ hpos hst p hp hstart => by
    rw [hpos, hst, hs.tokens, hstart]
    exact h p hp

/-- A declaration node from its head, read from any `p` whose token the head starts with. -/
theorem Wp.finishDecl_from {head : DeclHead} {name : String} {nameSpan : Span} {ty : TypeExpr}
    {kind : DeclKind} {P : Nat → Prop} (hs : s.On toks)
    (h : ∀ p, P p → Occupies toks p (.node .decl ((spanAt toks p).merge (lastRead toks s.pos))
      (ty.spanTree :: kind.spanTrees)) s.pos) :
    Wp (Parser.finishDecl head name nameSpan ty kind) s fun d s' =>
      ∀ p, P p → head.start = spanAt toks p → Occupies toks p d.spanTree s'.pos :=
  Wp.finishDecl hs.inside fun _ _ _ hpos hd p hp hstart => by
    rw [hpos, hd, hs.tokens, hstart]
    exact h p hp

/-- A node number handed out, in a state that reads on from where it was. -/
theorem Wp.freshId_kept {k : Nat → Parser β} (hs : s.Inside)
    (h : ∀ i s', s.Kept s' → s'.pos = s.pos → Wp (k i) s' Q) : Wp (freshId >>= k) s Q :=
  Wp.freshId_bind hs (h _ _ (Kept.of_eq hs rfl rfl rfl) rfl)

end Steps

theorem Decl.family_spanTree (d : Decl) : d.spanTree.family = .decl := by
  cases d
  rfl

/-- A declaration read from a body that starts at `s`: its type and value or body, read from `c`
to `q`, come after a token of its own or before one. -/
theorem Wp.declNode {toks : Array Token} (ho : InOrder toks) {head : DeclHead} {name : String}
    {nameSpan : Span} {ty : TypeExpr} {kind : DeclKind} {s s₁ : ParseState} {c q : Nat}
    (hs₁ : s₁.On toks) (hc : s.pos ≤ c) (hcr : c ≤ s₁.pos) (hq : q ≤ s₁.pos)
    (hlt : s.pos < s₁.pos) (hout : s.pos < c ∨ q < s₁.pos)
    (hcs : LaidAll toks c (ty.spanTree :: kind.spanTrees) q) :
    Wp (Parser.finishDecl head name nameSpan ty kind) s₁ fun d s' =>
      ∀ p ≤ s.pos, head.start = spanAt toks p → Occupies toks p d.spanTree s'.pos :=
  Wp.finishDecl_from hs₁ fun _ hp => Occupies.node ho (by omega) hcr hq (by omega) hs₁.lt
    (hout.imp (fun h => by omega) id) hcs

namespace Spans

variable {toks : Array Token} {n : Nat} (ho : InOrder toks)
include ho

/-! ## Blocks and statements -/

theorem block_step (h : Spans toks n) : Yields toks (parseBlock (n + 1)) Stmt.spanTree := by
  intro s hs
  simp only [parseBlock]
  refine Wp.expect_bind hs.inside fun hk => ?_
  have hnext := (hs.next_lt (by rw [hk]; decide)).1
  refine (h.blockItems _).bind hs.next fun stmts s₁ hk₁ hstmts => ?_
  have hs₁ := hs.next.kept hk₁
  have := hk₁.pos
  rw [hs.span]
  refine Wp.mkStmt_occupies hs₁ ?_
  simp only [StmtKind.spanTrees, Stmt.spanTreesOf_eq]
  exact Occupies.node ho (by omega) hk₁.pos le_rfl (by omega) hs₁.lt (.inl (by omega)) hstmts

theorem blockItems_step (h : Spans toks n) (open_ : Span) :
    YieldsAll toks (parseBlockItems (n + 1) open_) (·.map Stmt.spanTree) := by
  intro s hs
  simp only [parseBlockItems]
  refine Wp.currentKind_bind hs.inside ?_
  split
  · exact Wp.advance_bind hs.inside (Wp.pure hs.next.inside LaidAll.nil)
  · exact Wp.currentSpan_bind hs.inside (Wp.throw hs.inside _)
  -- an item, or nothing where an error was skipped, then the rest of the block
  refine Wp.bind ((Wp.blockItem
    (Q := fun r s₁ => LaidAll toks s.pos (r.toList.map Stmt.spanTree) s₁.pos)
    ((h.stmt s hs).mono fun _ _ _ hst => .single hst.1) fun _ _ => LaidAll.nil).mono
    fun r s₁ hk₁ hr => ?_)
  have hs₁ := hs.kept hk₁
  refine (h.blockItems open_).bind hs₁ fun rest s₂ hk₂ hrest => ?_
  have hs₂ := hs₁.kept hk₂
  refine Wp.pure hs₂.inside ?_
  rw [List.map_append]
  exact LaidAll.append ho hr hrest hk₁.pos le_rfl hk₂.pos hs₁.lt hs₂.lt

omit ho in
theorem stmt_step (h : Spans toks n) : Yields toks (parseStmt (n + 1)) Stmt.spanTree := by
  simp only [parseStmt]
  exact h.stmtInner.nested

theorem stmtInner_step (h : Spans toks n) :
    Yields toks (parseStmtInner (n + 1)) Stmt.spanTree := by
  intro s hs
  simp only [parseStmtInner]
  refine Wp.currentSpan_bind hs.inside (Wp.currentKind_bind hs.inside ?_)
  rw [hs.tokens]
  refine Wp.ite (fun hk => ?_) fun _ => Wp.ite (fun _ => h.block s hs) fun _ =>
    Wp.ite (fun _ => ?_) fun _ => Wp.ite (fun _ => ?_) fun _ => ?_
  · -- the empty statement
    have hsemi : (peekAt s 0).kind = .semicolon := by simpa using hk
    have hnext := (hs.next_lt (by rw [hsemi]; decide)).1
    exact Wp.advance_bind hs.inside (Wp.mkStmt_occupies hs.next (Occupies.node ho le_rfl
      (by omega) (by omega) (by omega) hs.next.lt (.inr (by omega)) (LaidAll.nil (q := s.pos))))
  · -- a declaration, whose node the statement's holds
    refine h.localDecl.bind hs fun d s₁ hk₁ hd => ?_
    have hs₁ := hs.kept hk₁
    exact Wp.mkStmt_occupies hs₁
      (Occupies.declStmt ho hd (Decl.family_spanTree d) le_rfl hs.lt hs₁.lt)
  · exact (h.keywordStmt none _ s hs).mono fun _ _ _ hst => hst s.pos le_rfl rfl
  refine Wp.peekKind_bind 1 hs.inside (Wp.ite (fun _ => ?_) fun _ => ?_)
  · -- a label, then the statement it names, which starts at the label
    refine Wp.expectIdent_bind hs.inside fun _ _ => ?_
    have hs₂ := hs.next.next
    refine Wp.advance_bind hs.next.inside (Wp.currentKind_bind hs₂.inside (Wp.ite (fun _ => ?_)
      fun _ => Wp.currentSpan_bind hs₂.inside (Wp.throw hs₂.inside _)))
    have := hs.le_next
    have := hs.next.le_next
    exact (h.keywordStmt _ _ s.next.next hs₂).mono fun _ _ _ hst => hst s.pos (by omega) rfl
  · -- an expression statement
    refine h.expr.bind hs fun e s₁ hk₁ he => ?_
    have hs₁ := hs.kept hk₁
    refine Wp.expect_bind hs₁.inside fun hsemi => ?_
    have hnext := (hs₁.next_lt (by rw [hsemi]; decide)).1
    have := hk₁.pos
    exact Wp.mkStmt_occupies hs₁.next (Occupies.node ho le_rfl (by omega) (by omega) (by omega)
      hs₁.next.lt (.inr (by omega)) (.single he.1))

theorem keywordStmt_step (h : Spans toks n) (label : Option Label) (start : Span) :
    YieldsFrom toks (parseKeywordStmt (n + 1) label start) start Stmt.spanTree := by
  intro s hs
  simp only [parseKeywordStmt]
  refine Wp.currentKind_bind hs.inside ?_
  -- every statement keyword is a token of its own, and what the statement holds comes after it
  have node : ∀ {kind : StmtKind} {s₁ : ParseState}, (peekAt s 0).kind ≠ .eof → s₁.On toks →
      s.next.pos ≤ s₁.pos → LaidAll toks s.next.pos kind.spanTrees s₁.pos →
      Wp (mkStmt kind start) s₁ fun st s' =>
        ∀ p ≤ s.pos, start = spanAt toks p → Occupies toks p st.spanTree s'.pos := by
    intro kind s₁ hne hs₁ hle hcs
    have := (hs.next_lt hne).1
    exact Wp.mkStmt_from hs₁ fun p hp => Occupies.node ho (by omega) hle le_rfl (by omega)
      hs₁.lt (.inl (by omega)) hcs
  split
  · next hk =>
    refine Wp.advance_bind hs.inside (h.condition.bind hs.next fun c s₁ hk₁ hc => ?_)
    have hs₁ := hs.next.kept hk₁
    refine h.stmt.bind hs₁ fun t s₂ hk₂ ht => ?_
    have hs₂ := hs₁.kept hk₂
    refine h.elseBranch.bind hs₂ fun e s₃ hk₃ he => ?_
    have hs₃ := hs₂.kept hk₃
    refine node (by rw [hk]; decide) hs₃ (hk₁.trans (hk₂.trans hk₃)).pos ?_
    simp only [StmtKind.spanTrees, Stmt.spanTreesOpt_eq, Option.toList_map]
    exact LaidAll.cons ho hc.1 (LaidAll.cons ho ht.1 he hk₂.pos le_rfl hk₃.pos hs₂.lt hs₃.lt)
      hk₁.pos le_rfl (hk₂.trans hk₃).pos hs₁.lt hs₃.lt
  · next hk =>
    refine Wp.advance_bind hs.inside (h.condition.bind hs.next fun c s₁ hk₁ hc => ?_)
    have hs₁ := hs.next.kept hk₁
    refine h.stmt.bind hs₁ fun body s₂ hk₂ hbody => ?_
    have hs₂ := hs₁.kept hk₂
    refine h.elseBranch.bind hs₂ fun e s₃ hk₃ he => ?_
    have hs₃ := hs₂.kept hk₃
    refine node (by rw [hk]; decide) hs₃ (hk₁.trans (hk₂.trans hk₃)).pos ?_
    simp only [StmtKind.spanTrees, Stmt.spanTreesOpt_eq, Option.toList_map, Option.map_none,
      Option.map_some, Option.toList_none, Option.toList_some, List.nil_append, List.append_nil,
      List.singleton_append]
    exact LaidAll.cons ho hc.1 (LaidAll.cons ho hbody.1 he hk₂.pos le_rfl hk₃.pos hs₂.lt
      hs₃.lt) hk₁.pos le_rfl (hk₂.trans hk₃).pos hs₁.lt hs₃.lt
  · next hk =>
    -- `for (init; cond; step) body`, each part after its own separator
    have hnext := (hs.next_lt (by rw [hk]; decide)).1
    refine Wp.advance_bind hs.inside (Wp.expect_bind hs.next.inside fun _ => ?_)
    have hs₀ := hs.next.next
    refine (h.optionalExpr _).bind hs₀ fun init s₁ hk₁ hinit => ?_
    have hs₁ := hs₀.kept hk₁
    refine Wp.expect_bind hs₁.inside fun _ =>
      (h.optionalExpr _).bind hs₁.next fun cond s₂ hk₂ hcond => ?_
    have hs₂ := hs₁.next.kept hk₂
    refine Wp.expect_bind hs₂.inside fun _ =>
      (h.optionalExpr _).bind hs₂.next fun step s₃ hk₃ hstep => ?_
    have hs₃ := hs₂.next.kept hk₃
    refine Wp.expect_bind hs₃.inside fun _ => h.stmt.bind hs₃.next fun body s₄ hk₄ hbody => ?_
    have hs₄ := hs₃.next.kept hk₄
    refine h.elseBranch.bind hs₄ fun e s₅ hk₅ he => ?_
    have hs₅ := hs₄.kept hk₅
    have := hs.next.le_next
    have := hs₁.le_next
    have := hs₂.le_next
    have := hs₃.le_next
    have := hk₁.pos
    have := hk₂.pos
    have := hk₃.pos
    have := hk₄.pos
    have := hk₅.pos
    refine node (by rw [hk]; decide) hs₅ (by omega) ?_
    simp only [StmtKind.spanTrees, Stmt.spanTreesOpt_eq, Option.toList_map]
    have hparts := LaidAll.append ho (LaidAll.append ho hinit hcond (by omega) (by omega)
      (by omega) hs₁.next.lt hs₂.lt) hstep (by omega) (by omega) (by omega) hs₂.next.lt hs₃.lt
    exact (LaidAll.append ho hparts (LaidAll.cons ho hbody.1 he hk₄.pos le_rfl hk₅.pos hs₄.lt
      hs₅.lt) (by omega) (by omega) (by omega) hs₃.next.lt hs₅.lt).widen ho
      hs.next.le_next le_rfl hs₀.lt hs₅.lt.le
  iterate 3
    · next hk =>
      exact Wp.advance_bind hs.inside (Wp.keeps_bind Keeps.parseJumpLabel hs.next.inside
        fun _ _ hk₁ => node (by rw [hk]; decide) (hs.next.kept hk₁) hk₁.pos LaidAll.nil)
  · next hk =>
    refine Wp.advance_bind hs.inside ((h.optionalExpr _).bind hs.next fun v s₁ hk₁ hv => ?_)
    have hs₁ := hs.next.kept hk₁
    refine Wp.expect_bind hs₁.inside fun _ =>
      node (by rw [hk]; decide) hs₁.next (hk₁.pos.trans hs₁.le_next) ?_
    simp only [StmtKind.spanTrees, Option.toList_map]
    exact hv.widen ho le_rfl hs₁.le_next hs.next.lt hs₁.next.lt.le
  · exact Wp.currentSpan_bind hs.inside (Wp.throw hs.inside _)

theorem condition_step (h : Spans toks n) : Yields toks (parseCondition (n + 1)) Expr.spanTree := by
  intro s hs
  simp only [parseCondition]
  refine Wp.expect_bind hs.inside fun _ => h.expr.bind hs.next fun c s₁ hk₁ hc => ?_
  have hs₁ := hs.next.kept hk₁
  exact Wp.expect_bind hs₁.inside fun _ => Wp.pure hs₁.next.inside
    (Occupies.widen ho hc hs.le_next hs₁.le_next hs.next.lt hs₁.next.lt.le)

theorem elseBranch_step (h : Spans toks n) :
    YieldsAll toks (parseElse (n + 1)) (·.toList.map Stmt.spanTree) := by
  intro s hs
  simp only [parseElse]
  refine Wp.eat_ite hs.inside (fun _ => ?_) fun _ => Wp.pure hs.inside LaidAll.nil
  exact h.stmt.bind hs.next fun _ _ hk₁ hst => Wp.pure (hs.next.kept hk₁).inside
    (.single (hst.1.widen ho hs.le_next le_rfl hs.next.lt (hs.next.kept hk₁).lt.le))

omit ho in
theorem optionalExpr_step (h : Spans toks n) (terminator : TokenKind) :
    YieldsAll toks (parseOptionalExpr (n + 1) terminator) (·.toList.map Expr.spanTree) := by
  intro s hs
  simp only [parseOptionalExpr]
  refine Wp.check_bind hs.inside (Wp.ite (fun _ => Wp.pure hs.inside LaidAll.nil) fun _ => ?_)
  exact h.expr.bind hs fun _ _ hk₁ he => Wp.pure (hs.kept hk₁).inside (.single he.1)

/-! ## Initializers -/

omit ho in
theorem init_step (h : Spans toks n) : Yields toks (parseInit (n + 1)) Expr.spanTree := by
  simp only [parseInit]
  exact h.initInner.nested

theorem initInner_step (h : Spans toks n) :
    Yields toks (parseInitInner (n + 1)) Expr.spanTree := by
  intro s hs
  simp only [parseInitInner]
  refine Wp.currentSpan_bind hs.inside (Wp.currentKind_bind hs.inside ?_)
  rw [hs.tokens]
  split
  · next hk =>
    have hnext := (hs.next_lt (by rw [hk]; decide)).1
    refine Wp.advance_bind hs.inside (h.elements.bind hs.next fun elems s₁ hk₁ helems => ?_)
    have hs₁ := hs.next.kept hk₁
    refine Wp.keeps_bind (Keeps.expectCloseBrace _) hs₁.inside fun _ s₂ hk₂ => ?_
    have hs₂ := hs₁.kept hk₂
    have := hk₁.pos
    have := hk₂.pos
    refine Wp.mkExpr_occupies hs₂ ?_
    simp only [ExprKind.spanTrees, Expr.spanTreesOf_eq]
    exact Occupies.node ho (by omega) (by omega) hk₂.pos (by omega) hs₂.lt (.inl (by omega))
      helems
  iterate 2
    · next hk =>
      refine Wp.peekKind_bind 1 hs.inside (Wp.ite (fun _ => ?_) fun _ => h.assign s hs)
      have hnext := (hs.next_lt (by rw [hk]; decide)).1
      refine Wp.advance_bind hs.inside (h.fieldInits.bind hs.next fun fields s₁ hk₁ hfields => ?_)
      have hs₁ := hs.next.kept hk₁
      have := hk₁.pos
      refine Wp.mkExpr_occupies hs₁ ?_
      simp only [ExprKind.spanTrees, FieldInit.spanTreesOf_eq]
      exact Occupies.node ho (by omega) hk₁.pos le_rfl (by omega) hs₁.lt (.inl (by omega))
        hfields
  · exact h.assign s hs

theorem elements_step (h : Spans toks n) :
    YieldsAll toks (parseElements (n + 1)) (·.map Expr.spanTree) := by
  intro s hs
  simp only [parseElements]
  refine Wp.check_bind hs.inside (Wp.atEnd_bind hs.inside
    (Wp.ite (fun _ => Wp.pure hs.inside LaidAll.nil) fun _ => ?_))
  refine h.init.bind hs fun e s₁ hk₁ he => ?_
  have hs₁ := hs.kept hk₁
  refine Wp.eat_ite hs₁.inside (fun _ => ?_) fun _ => Wp.pure hs₁.inside (.single he.1)
  refine h.elements.bind hs₁.next fun rest s₂ hk₂ hrest => ?_
  have hs₂ := hs₁.next.kept hk₂
  have := hk₁.pos
  have := hk₂.pos
  have := hs₁.le_next
  exact Wp.pure hs₂.inside (LaidAll.cons ho he.1 hrest (by omega) (by omega) (by omega)
    hs₁.next.lt hs₂.lt)

theorem fieldInits_step (h : Spans toks n) :
    YieldsAll toks (parseFieldInits (n + 1)) (·.map (·.value.spanTree)) := by
  intro s hs
  simp only [parseFieldInits]
  refine Wp.expect_bind hs.inside fun _ =>
    (h.fieldList []).bind hs.next fun fields s₁ hk₁ hfields => ?_
  have hs₁ := hs.next.kept hk₁
  exact Wp.keeps_bind (Keeps.expectCloseBrace _) hs₁.inside fun _ s₂ hk₂ =>
    Wp.pure (hs₁.kept hk₂).inside
      (hfields.widen ho hs.le_next hk₂.pos hs.next.lt (hs₁.kept hk₂).lt.le)

theorem fieldList_step (h : Spans toks n) (seen : List (String × Span)) :
    YieldsAll toks (parseFieldList (n + 1) seen) (·.map (·.value.spanTree)) := by
  intro s hs
  simp only [parseFieldList]
  refine Wp.check_bind hs.inside (Wp.atEnd_bind hs.inside
    (Wp.ite (fun _ => Wp.pure hs.inside LaidAll.nil) fun _ => ?_))
  refine Wp.expectIdent_bind hs.inside fun name _ => Wp.expect_bind hs.next.inside fun _ => ?_
  refine h.init.bind hs.next.next fun value s₁ hk₁ hvalue => ?_
  have hs₁ := hs.next.next.kept hk₁
  refine Wp.spanFrom_bind hs₁.inside ?_
  -- a field named again is dropped; the rest of the list follows either way
  have tail : ∀ (keep : Option FieldInit) seen' s₂, s₁.Kept s₂ → (∀ f ∈ keep, f.value = value) →
      Wp (do if ← eat .comma then return keep.toList ++ (← parseFieldList n seen')
             else return keep.toList) s₂
        fun fs s' => LaidAll toks s.pos (fs.map (·.value.spanTree)) s'.pos := by
    intro keep seen' s₂ hk₂ hkeep
    have hs₂ := hs₁.kept hk₂
    have := hs.le_next
    have := hs.next.le_next
    have := hk₁.pos
    have := hk₂.pos
    have hplaced : LaidAll toks s.pos (keep.toList.map (·.value.spanTree)) s₂.pos := by
      cases keep with
      | none => exact LaidAll.nil
      | some f =>
        show LaidAll toks s.pos [f.value.spanTree] s₂.pos
        rw [hkeep f rfl]
        exact .single (hvalue.1.widen ho (by omega) hk₂.pos hs.next.next.lt hs₂.lt.le)
    refine Wp.eat_ite hs₂.inside (fun _ => ?_) fun _ => Wp.pure hs₂.inside hplaced
    refine (h.fieldList seen').bind hs₂.next fun rest s₃ hk₃ hrest => ?_
    have hs₃ := hs₂.next.kept hk₃
    have := hk₃.pos
    have := hs₂.le_next
    refine Wp.pure hs₃.inside ?_
    rw [List.map_append]
    exact LaidAll.append ho hplaced hrest (by omega) (by omega) (by omega) hs₂.next.lt hs₃.lt
  split
  · exact Wp.keeps_bind (Keeps.report _) hs₁.inside fun _ s₂ hk₂ =>
      Wp.bind (Wp.pure hk₂.inside (tail none _ s₂ hk₂ (by simp)))
  · exact Wp.bind (Wp.pure hs₁.inside (tail _ _ s₁ (Kept.refl hs₁.inside)
      (by simp [FieldInit.value])))

/-! ## Declarations -/

omit ho in
theorem decl_step (h : Spans toks n) : Yields toks (parseDecl (n + 1)) Decl.spanTree := by
  intro s hs
  simp only [parseDecl]
  refine Wp.bind (Wp.parseDeclHead hs.inside fun head s₁ hk₁ hstart => ?_)
  exact (h.declBody head s₁ (hs.kept hk₁)).mono fun _ _ _ hd =>
    hd s.pos hk₁.pos (by rw [hstart, hs.tokens])

omit ho in
theorem localDecl_step (h : Spans toks n) :
    Yields toks (parseLocalDecl (n + 1)) Decl.spanTree := by
  intro s hs
  simp only [parseLocalDecl]
  refine Wp.bind (Wp.parseDeclHead hs.inside fun head s₁ hk₁ hstart => ?_)
  have hs₁ := hs.kept hk₁
  refine Wp.check_bind hs₁.inside (Wp.ite (fun _ => Wp.currentSpan_bind hs₁.inside
    (Wp.bind (Wp.throw hs₁.inside _))) fun _ => ?_)
  exact (h.declBody head s₁ hs₁).mono fun _ _ _ hd => hd s.pos hk₁.pos (by rw [hstart, hs.tokens])

theorem declBody_step (h : Spans toks n) (head : DeclHead) :
    YieldsFrom toks (parseDeclBody (n + 1) head) head.start Decl.spanTree := by
  intro s hs
  simp only [parseDeclBody]
  refine Wp.currentKind_bind hs.inside ?_
  -- after the keyword and the name, the type and then the value
  split
  · exact h.function head s hs
  · refine Wp.keeps_bind (Keeps.rejectModifiers _ _ _) hs.inside fun _ s₀ hk₀ => ?_
    have hs₀ := hs.kept hk₀
    refine Wp.expect_bind hs₀.inside fun hv => Wp.expectIdent_bind hs₀.next.inside fun _ _ =>
      Wp.expect_bind hs₀.next.next.inside fun _ => ?_
    have hs₁ := hs₀.next.next.next
    refine h.type.bind hs₁ fun ty s₂ hk₂ hty => ?_
    have hs₂ := hs₁.kept hk₂
    refine Wp.eat_ite_bind hs₂.inside
      (P := fun value s₃ => LaidAll toks s₂.pos (value.map Expr.spanTree).toList s₃.pos)
      (fun _ => Wp.map ((h.init s₂.next hs₂.next).mono fun _ _ hk₃ he =>
        .single (he.1.widen ho hs₂.le_next le_rfl hs₂.next.lt (hs₂.next.kept hk₃).lt.le)))
      (fun _ => Wp.pure hs₂.inside LaidAll.nil) fun value s₃ hk₃ hvalue => ?_
    have hs₃ := hs₂.kept hk₃
    have := (hs₀.next_lt (by rw [hv]; decide)).1
    have := hk₀.pos
    have := hs₀.next.le_next
    have := hs₀.next.next.le_next
    have := hk₂.pos
    have := hk₃.pos
    have := hs₃.le_next
    exact Wp.expect_bind hs₃.inside fun _ => Wp.declNode ho hs₃.next (c := s₀.next.next.next.pos)
      (by omega) (by omega) hs₃.le_next (by omega) (.inl (by omega))
      (LaidAll.cons ho hty.1 hvalue hk₂.pos le_rfl hk₃.pos hs₂.lt hs₃.lt)
  · refine Wp.keeps_bind (Keeps.rejectModifiers _ _ _) hs.inside fun _ s₀ hk₀ => ?_
    have hs₀ := hs.kept hk₀
    refine Wp.expect_bind hs₀.inside fun hv => Wp.expectIdent_bind hs₀.next.inside fun _ _ =>
      Wp.expect_bind hs₀.next.next.inside fun _ => ?_
    have hs₁ := hs₀.next.next.next
    refine h.type.bind hs₁ fun ty s₂ hk₂ hty => ?_
    have hs₂ := hs₁.kept hk₂
    refine Wp.expect_bind hs₂.inside fun _ => h.assign.bind hs₂.next fun value s₃ hk₃ hvalue => ?_
    have hs₃ := hs₂.next.kept hk₃
    have := (hs₀.next_lt (by rw [hv]; decide)).1
    have := hk₀.pos
    have := hs₀.next.le_next
    have := hs₀.next.next.le_next
    have := hs₂.le_next
    have := hk₂.pos
    have := hk₃.pos
    have := hs₃.le_next
    exact Wp.expect_bind hs₃.inside fun _ => Wp.declNode ho hs₃.next (c := s₀.next.next.next.pos)
      (by omega) (by omega) (by omega) (by omega) (.inl (by omega))
      (LaidAll.cons ho hty.1 (.single hvalue.1) (by omega) (by omega) (by omega) hs₂.next.lt
        hs₃.lt)
  · refine Wp.keeps_bind (Keeps.rejectModifiers _ _ _) hs.inside fun _ s₀ hk₀ => ?_
    have hs₀ := hs.kept hk₀
    refine Wp.expect_bind hs₀.inside fun hv => Wp.expectIdent_bind hs₀.next.inside fun _ _ =>
      Wp.expect_bind hs₀.next.next.inside fun _ => ?_
    have hs₁ := hs₀.next.next.next
    refine h.type.bind hs₁ fun ty s₂ hk₂ hty => ?_
    have hs₂ := hs₁.kept hk₂
    have := (hs₀.next_lt (by rw [hv]; decide)).1
    have := hk₀.pos
    have := hs₀.next.le_next
    have := hs₀.next.next.le_next
    have := hk₂.pos
    have := hs₂.le_next
    exact Wp.expect_bind hs₂.inside fun _ => Wp.declNode ho hs₂.next (c := s₀.next.next.next.pos)
      (by omega) (by omega) (by omega) (by omega) (.inl (by omega)) (.single hty.1)
  iterate 2
    · next hk =>
      -- a record type: the node of its body, from the keyword, is the declaration's type
      refine Wp.keeps_bind (Keeps.rejectModifiers _ _ _) hs.inside fun _ s₀ hk₀ => ?_
      have hs₀ := hs.kept hk₀
      refine Wp.advance_bind hs₀.inside (Wp.expectIdent_bind hs₀.next.inside fun _ hid => ?_)
      refine h.recordBody.bind hs₀.next.next fun members s₁ hk₁ hmembers => ?_
      have hs₁ := hs₀.next.next.kept hk₁
      refine Wp.freshId_kept hs₁.inside fun _ s₂ hk₂ hpos₂ => ?_
      have hs₂ := hs₁.kept hk₂
      refine Wp.spanFrom_bind hs₂.inside (Wp.expect_bind hs₂.inside fun hsemi => ?_)
      rw [hs₀.span, hs₂.tokens, hpos₂]
      have := (hs₀.next_lt (ne_eof_of_next hid (by decide))).1
      have := (hs₂.next_lt (by rw [hsemi]; decide)).1
      have := hk₀.pos
      have := hs₀.next.le_next
      have := hk₁.pos
      have hty := Occupies.node ho (F := .type) (p := s₀.pos) (by omega) hk₁.pos le_rfl
        (by omega) hs₁.lt (.inl (by omega)) hmembers
      refine Wp.declNode ho hs₂.next (c := s₀.pos) (q := s₁.pos) (by omega) (by omega)
        (by omega) (by omega) (.inr (by omega)) (.single ?_)
      simpa only [TypeExpr.spanTree_mk, TypeExprKind.spanTrees, MemberDecl.spanTreesOf_eq]
        using hty.1
  · exact Wp.currentSpan_bind hs.inside (Wp.throw hs.inside _)

theorem function_step (h : Spans toks n) (head : DeclHead) :
    YieldsFrom toks (parseFun (n + 1) head) head.start Decl.spanTree := by
  intro s hs
  simp only [parseFun]
  refine Wp.expect_bind hs.inside fun hf => Wp.expectIdent_bind hs.next.inside fun _ _ => ?_
  have hs₁ := hs.next.next
  refine Wp.currentSpan_bind hs₁.inside (Wp.expect_bind hs₁.inside fun hl => ?_)
  refine Wp.check_bind hs₁.next.inside (Wp.ite_bind
    (P := fun x s₂ => LaidAll toks s.next.next.next.pos (x.2.1.map TypeExpr.spanTree) s₂.pos)
    (fun _ => Wp.pure hs₁.next.inside LaidAll.nil) (fun _ => h.params _ hs₁.next)
    fun x s₂ hk₂ hps => ?_)
  obtain ⟨params, tys, variadic⟩ := x
  have hs₂ := hs₁.next.kept hk₂
  refine Wp.expect_bind hs₂.inside fun hr => ?_
  refine Wp.bind ((h.returnType _ hs₂.next).mono fun ret s₃ hk₃ hret => ?_)
  have hs₃ := hs₂.next.kept hk₃
  refine Wp.freshId_kept hs₃.inside fun _ s₄ hk₄ hpos₄ => ?_
  have hs₄ := hs₃.kept hk₄
  refine Wp.spanFrom_bind hs₄.inside ?_
  rw [hs₁.tokens, hs₄.tokens, hpos₄]
  have := (hs.next_lt (by rw [hf]; decide)).1
  have := (hs₁.next_lt (by rw [hl]; decide)).1
  have := hs.next.le_next
  have := hk₂.pos
  have := hk₃.pos
  have := hs₂.le_next
  -- the signature's type node runs from the parenthesis over the parameters and return type
  have hty := Occupies.node ho (F := .type) (p := s.next.next.pos)
    (by omega) (by omega) le_rfl (by omega) hs₃.lt (.inl (by omega))
    (LaidAll.signature ho hs₂ (by rw [hr]; decide) hk₃ hps hk₂.pos hret)
  -- then a body, or `;`
  refine Wp.eat_ite_bind hs₄.inside
    (P := fun body s₅ => LaidAll toks s₄.pos (Stmt.spanTreesOpt body) s₅.pos ∧ s₄.pos < s₅.pos)
    (fun hsemi => Wp.pure hs₄.next.inside
      ⟨LaidAll.nil, (hs₄.next_lt (by rw [hsemi]; decide)).1 ▸ Nat.lt_succ_self _⟩)
    (fun _ => Wp.map ((h.block s₄ hs₄).mono fun _ _ _ hb =>
      ⟨.single hb.1, Occupies.lt_pos ho hb hs₄.lt⟩)) fun body s₅ hk₅ hbody => ?_
  have hs₅ := hs₄.kept hk₅
  refine Wp.declNode ho hs₅ (c := s.next.next.pos) (by omega) (by omega) le_rfl (by omega)
    (.inl (by omega)) (LaidAll.cons ho ?_ hbody.1 (by omega) le_rfl hk₅.pos hs₄.lt hs₅.lt)
  simpa only [TypeExpr.spanTree_mk, TypeExprKind.spanTrees, TypeExpr.spanTreesOf_eq, hpos₄]
    using hty.1

theorem params_step (h : Spans toks n) :
    YieldsAll toks (parseParams (n + 1)) (·.2.1.map TypeExpr.spanTree) := by
  intro s hs
  simp only [parseParams]
  refine Wp.check_bind hs.inside (Wp.ite (fun _ => Wp.keeps_bind Keeps.parseVariadicMarker
    hs.inside fun _ _ hk₁ => Wp.pure hk₁.inside LaidAll.nil) fun _ => ?_)
  refine Wp.expectIdent_bind hs.inside fun _ _ => Wp.expect_bind hs.next.inside fun _ => ?_
  refine h.type.bind hs.next.next fun t s₁ hk₁ ht => ?_
  have hs₁ := hs.next.next.kept hk₁
  have := hs.le_next
  have := hs.next.le_next
  have := hk₁.pos
  have hpl : Laid toks s.pos _ s₁.pos := ht.1.widen ho (by omega) le_rfl hs.next.next.lt hs₁.lt.le
  refine Wp.eat_ite hs₁.inside (fun _ => ?_) fun _ => Wp.pure hs₁.inside (.single hpl)
  refine h.params.bind hs₁.next fun ps s₂ hk₂ hps => ?_
  obtain ⟨ps, ts, v⟩ := ps
  have hs₂ := hs₁.next.kept hk₂
  have := hk₂.pos
  have := hs₁.le_next
  exact Wp.pure hs₂.inside (LaidAll.cons ho hpl hps (by omega) (by omega) (by omega)
    hs₁.next.lt hs₂.lt)

/-- One more level of fuel: every step. -/
theorem succ (h : Spans toks n) : Spans toks (n + 1) where
  expr := expr_step ho h
  commaTail := commaTail_step ho h
  assign := assign_step ho h
  ternary := ternary_step ho h
  binary := binary_step h
  binaryTail := binaryTail_step ho h
  unary := unary_step ho h
  sizeof := sizeof_step ho h
  operand := operand_step h
  operandTail := operandTail_step ho h
  callArgs := callArgs_step ho h
  argList := argList_step ho h
  primary := primary_step ho h
  stringTail := stringTail_step h
  type := type_step h
  typeInner := typeInner_step ho h
  funType := funType_step ho h
  typeParams := typeParams_step ho h
  returnType := returnType_step ho h
  recordBody := recordBody_step ho h
  members := members_step ho h
  block := block_step ho h
  blockItems := blockItems_step ho h
  stmt := stmt_step h
  stmtInner := stmtInner_step ho h
  keywordStmt := keywordStmt_step ho h
  condition := condition_step ho h
  elseBranch := elseBranch_step ho h
  optionalExpr := optionalExpr_step h
  init := init_step h
  initInner := initInner_step ho h
  elements := elements_step ho h
  fieldInits := fieldInits_step ho h
  fieldList := fieldList_step ho h
  decl := decl_step h
  localDecl := localDecl_step h
  declBody := declBody_step ho h
  function := function_step ho h
  params := params_step ho h

end Spans

/-- Over tokens laid out in order, every grammar function places its nodes, at every fuel. -/
theorem spans {toks : Array Token} (ho : InOrder toks) : ∀ n, Spans toks n
  | 0 => spans_zero
  | n + 1 => (spans ho n).succ ho

end Parser

end SolarFront
