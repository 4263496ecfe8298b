import SolarFront.Proofs.Typing.Spelling
import SolarFront.Proofs.Syntax.Run

/-!
# Parsing the tokens of a type's text

The type grammar reads back the tokens of the text of a `Spelled` type (`TypePool.tokensOf`):
from a state whose tokens ahead start with them, `parseType` reads exactly them and returns a
node of the type's shape (`TypePool.Shape`), given enough fuel and when the type nests no deeper
than the nesting limit allows. The parse is followed forward, one grammar function at a time:
each lemma gives the run of one function from the runs of the functions it calls.
-/

set_option autoImplicit false
set_option linter.all false

namespace SolarFront

namespace ParseState

/-- The tokens from the cursor on have the forms `ks`. -/
def Ahead (s : ParseState) (ks : List (TokenKind × TokenValue)) : Prop :=
  (s.tokens.toList.drop s.pos).map Token.form = ks

variable {s : ParseState} {k : TokenKind × TokenValue} {ks : List (TokenKind × TokenValue)}

/-- The token under the cursor is the first one ahead. -/
theorem Ahead.peek (h : s.Ahead (k :: ks)) : (Parser.peekAt s 0).form = k := by
  unfold Ahead at h
  rcases hdrop : s.tokens.toList.drop s.pos with _ | ⟨tok, rest⟩
  · simp [hdrop] at h
  · rw [hdrop, List.map_cons, List.cons.injEq] at h
    have hget : s.tokens[s.pos]? = some tok := by
      rw [← Array.getElem?_toList, ← Nat.add_zero s.pos, ← List.getElem?_drop, hdrop]
      rfl
    have hlt : s.pos < s.tokens.size := (Array.getElem?_eq_some_iff.1 hget).1
    simp only [Parser.peekAt, Nat.add_zero, Nat.min_eq_left (Nat.le_sub_one_of_lt hlt), hget,
      Option.getD_some]
    exact h.1

theorem Ahead.kind (h : s.Ahead (k :: ks)) : (Parser.peekAt s 0).kind = k.1 := by
  rw [← h.peek]
  rfl

theorem Ahead.value (h : s.Ahead (k :: ks)) : (Parser.peekAt s 0).value = k.2 := by
  rw [← h.peek]
  rfl

/-- Moving past the token under the cursor leaves the rest ahead. -/
theorem Ahead.advance (h : s.Ahead (k :: ks)) : ({ s with pos := s.pos + 1 } : ParseState).Ahead ks := by
  unfold Ahead at h ⊢
  have hrest := congrArg (List.drop 1) h
  rw [List.map_drop, List.drop_drop] at hrest
  simpa [List.map_drop, Nat.add_comm] using hrest

/-- Past the tokens a run read, the rest is ahead. -/
theorem Ahead.skip {s' : ParseState} {ks' : List (TokenKind × TokenValue)} (h : s.Ahead (ks ++ ks'))
    (htokens : s'.tokens = s.tokens) (hpos : s'.pos = s.pos + ks.length) : s'.Ahead ks' := by
  unfold Ahead at h ⊢
  have hrest := congrArg (List.drop ks.length) h
  rw [List.map_drop, List.drop_drop, List.drop_left] at hrest
  rw [htokens, hpos, List.map_drop]
  exact hrest

/-- `s'` is `s` with `n` more tokens read: the same tokens, comments, depth and errors and the
cursor `n` further on; only the numbering of nodes may have moved. -/
structure Advanced (s : ParseState) (n : Nat) (s' : ParseState) : Prop where
  tokens : s'.tokens = s.tokens
  comments : s'.comments = s.comments
  pos : s'.pos = s.pos + n
  depth : s'.depth = s.depth
  errors : s'.errors = s.errors

namespace Advanced

variable {s₁ s₂ : ParseState} {a b : Nat}

theorem trans (h₁ : s.Advanced a s₁) (h₂ : s₁.Advanced b s₂) : s.Advanced (a + b) s₂ where
  tokens := h₂.tokens.trans h₁.tokens
  comments := h₂.comments.trans h₁.comments
  pos := by rw [h₂.pos, h₁.pos, Nat.add_assoc]
  depth := h₂.depth.trans h₁.depth
  errors := h₂.errors.trans h₁.errors

theorem ahead {ks' : List (TokenKind × TokenValue)} (h : s.Ahead (ks ++ ks'))
    (ha : s.Advanced ks.length s₁) : s₁.Ahead ks' :=
  h.skip ha.tokens ha.pos

/-- Reading one token. -/
theorem one : s.Advanced 1 { s with pos := s.pos + 1 } := ⟨rfl, rfl, rfl, rfl, rfl⟩

/-- Reading one token and numbering one node. -/
theorem step : s.Advanced 1 { s with pos := s.pos + 1, nextId := s.nextId + 1 } :=
  ⟨rfl, rfl, rfl, rfl, rfl⟩

theorem cast (h : s.Advanced a s₁) (hab : a = b) : s.Advanced b s₁ := hab ▸ h

theorem renumber (h : s.Advanced a s₁) (m : Nat) : s.Advanced a { s₁ with nextId := m } :=
  ⟨h.tokens, h.comments, h.pos, h.depth, h.errors⟩

/-- What a run one level deeper read, once the level is left again. -/
theorem leave (h : ({ s with depth := s.depth + 1 } : ParseState).Advanced a s₁) :
    s.Advanced a { s₁ with depth := s₁.depth - 1 } :=
  ⟨h.tokens, h.comments, h.pos, by simp [h.depth], h.errors⟩

end Advanced

end ParseState

namespace TypePool

/-- A type node written as the type `t` of the pool is: the same forms, components and lengths,
whatever its identifiers, spans and `volatile` marks. -/
inductive Shape (p : TypePool) : TypeExpr → TypeId → Prop
  | void {id : Nat} {span : Span} {vol : Bool} {t : TypeId} (h : p.get t = .void) :
      Shape p (.mk id span vol .void) t
  | int {id : Nat} {span : Span} {vol : Bool} {t : TypeId} {w : Width} (h : p.get t = .int w) :
      Shape p (.mk id span vol (.int w)) t
  | pointer {id : Nat} {span : Span} {vol : Bool} {t e : TypeId} {inner : TypeExpr}
      (h : p.get t = .array e none) (hinner : Shape p inner e) :
      Shape p (.mk id span vol (.array inner none)) t
  | array {id : Nat} {span : Span} {vol : Bool} {t e : TypeId} {len : Nat} {inner : TypeExpr}
      {size : Expr} (h : p.get t = .array e (some len)) (hsize : size.kind = .int len .w16)
      (hinner : Shape p inner e) : Shape p (.mk id span vol (.array inner (some size))) t
  | func {id : Nat} {span : Span} {vol : Bool} {t ret : TypeId} {params : List TypeId}
      {variadic : Bool} {r : TypeExpr} {nodes : List TypeExpr}
      (h : p.get t = .func ret params variadic) (hret : Shape p r ret)
      (hparams : List.Forall₂ (Shape p) nodes params) :
      Shape p (.mk id span vol (.func r nodes variadic)) t

end TypePool

namespace Parser

open ParseState

variable {α β : Type} {s s₁ s₂ : ParseState} {a : α} {b : β}
  {k : TokenKind × TokenValue} {ks : List (TokenKind × TokenValue)}

/-! ## Runs built forward -/

theorem Returns.bind {x : Parser α} {f : α → Parser β} (h₁ : Returns x s a s₁)
    (h₂ : Returns (f a) s₁ b s₂) : Returns (x >>= f) s b s₂ :=
  returns_bind.2 ⟨a, s₁, h₁, h₂⟩

theorem Returns.pure : Returns (pure a : Parser α) s a s := returns_pure.2 ⟨rfl, rfl⟩

theorem returns_advance_ahead (h : s.Ahead (k :: ks)) (hk : k.1 ≠ .eof) :
    Returns advance s (peekAt s 0) { s with pos := s.pos + 1 } :=
  returns_advance.2 ⟨rfl, by rw [if_pos (by simpa [h.kind] using hk)]⟩

theorem returns_eat_ahead (h : s.Ahead (k :: ks)) (hk : k.1 ≠ .eof) :
    Returns (eat k.1) s true { s with pos := s.pos + 1 } := by
  unfold eat
  refine .bind (returns_check.2 ⟨rfl, rfl⟩) ?_
  rw [h.kind, beq_self_eq_true, if_pos rfl]
  exact .bind (returns_advance_ahead h hk) .pure

theorem returns_eat_other {k' : TokenKind} (h : (peekAt s 0).kind ≠ k') :
    Returns (eat k') s false s := by
  unfold eat
  refine .bind (returns_check.2 ⟨rfl, rfl⟩) ?_
  rw [if_neg (by simpa using h)]
  exact .pure

theorem returns_expect_ahead (h : s.Ahead (k :: ks)) (hk : k.1 ≠ .eof) :
    Returns (expect k.1) s (peekAt s 0) { s with pos := s.pos + 1 } := by
  unfold expect
  refine .bind (returns_current.2 ⟨rfl, rfl⟩) ?_
  rw [if_pos (by simp [h.kind])]
  exact returns_advance_ahead h hk

theorem returns_eatRun_other {k' : TokenKind} (h : (peekAt s 0).kind ≠ k') (n : Nat) :
    Returns (eatRun k' n) s false s := by
  cases n with
  | zero => exact .pure
  | succ n =>
    unfold eatRun
    refine .bind (returns_eat_other h) ?_
    exact .pure

/-- A construct run one level deeper, from a depth below the limit. -/
theorem returns_nested_of {x : Parser α} (hd : s.depth < nestingLimit)
    (h : Returns x { s with depth := s.depth + 1 } a s₁) :
    Returns (nested x) s a { s₁ with depth := s₁.depth - 1 } := by
  unfold nested
  refine .bind (returns_get.2 ⟨rfl, rfl⟩) ?_
  rw [if_neg (by omega)]
  refine .bind (returns_set.2 rfl : Returns (set _) s PUnit.unit _) ?_
  refine .bind (returns_tryCatch.2 (.inl h)) ?_
  exact .bind (returns_modify.2 rfl : Returns (modify _) s₁ PUnit.unit _) .pure

theorem returns_spanFrom_self (s : ParseState) (start : Span) :
    ∃ sp, Returns (spanFrom start) s sp s := by
  have hprev : ∃ sp, Returns previousSpan s sp s := by
    unfold previousSpan
    cases hpos : s.pos with
    | zero => exact ⟨_, .bind (returns_get.2 ⟨rfl, rfl⟩) (by simp only [hpos]; exact .pure)⟩
    | succ p => exact ⟨_, .bind (returns_get.2 ⟨rfl, rfl⟩) (by simp only [hpos]; exact .pure)⟩
  obtain ⟨sp, hsp⟩ := hprev
  exact ⟨_, .bind hsp .pure⟩

/-! ## An array length: an integer literal before `]` -/

section Length

variable {fuel v : Nat} {w : LitWidth} {e : Expr}

theorem returns_parsePrimary_int (fuel : Nat) (h : s.Ahead ((.int, .int v w) :: ks)) :
    ∃ e, Returns (parsePrimary (fuel + 1)) s e { s with pos := s.pos + 1, nextId := s.nextId + 1 } ∧
      e.kind = .int v w := by
  unfold parsePrimary
  obtain ⟨sp, hsp⟩ := returns_spanFrom_self { s with pos := s.pos + 1 } (peekAt s 0).span
  refine ⟨.mk s.nextId sp (.int v w), .bind (returns_current.2 ⟨rfl, rfl⟩) ?_, rfl⟩
  simp only [h.kind, h.value]
  exact .bind (returns_advance_ahead h (by simp)) (.bind hsp
    (.bind (returns_freshId.2 ⟨rfl, rfl⟩) .pure))

/-- Past the literal, a `]` ends every level of the expression grammar. -/
theorem returns_parsePostfixTail_rBracket (h : (peekAt s 0).kind = .rBracket) :
    Returns (parsePostfixTail (fuel + 1) e) s e s := by
  unfold parsePostfixTail
  exact .bind (returns_currentKind.2 ⟨rfl, rfl⟩) (by simp only [h]; exact .pure)

theorem returns_parseBinaryTail_rBracket {minPrec : Nat} (h : (peekAt s 0).kind = .rBracket) :
    Returns (parseBinaryTail (fuel + 1) minPrec e) s e s := by
  unfold parseBinaryTail
  exact .bind (returns_currentKind.2 ⟨rfl, rfl⟩) (by simp only [h, infixOp]; exact .pure)

/-- An integer literal before `]` is read as itself by the whole expression grammar, with seven
levels of fuel. -/
theorem returns_parseExpr_int (fuel : Nat) (h : s.Ahead ((.int, .int v w) :: (.rBracket, .none) :: ks)) :
    ∃ e, Returns (parseExpr (fuel + 7)) s e { s with pos := s.pos + 1, nextId := s.nextId + 1 } ∧
      e.kind = .int v w := by
  obtain ⟨e, he, hkind⟩ := returns_parsePrimary_int fuel h
  set s' : ParseState := { s with pos := s.pos + 1, nextId := s.nextId + 1 }
  have hnext : (peekAt s' 0).kind = .rBracket := (h.advance : ParseState.Ahead s' _).kind
  -- each level below the comma list finds no operator of its own before `]`
  have hpostfix : Returns (parsePostfix (fuel + 2)) s e s' :=
    .bind he (returns_parsePostfixTail_rBracket hnext)
  have hprefix : Returns (parsePrefix (fuel + 3)) s e s' := by
    unfold parsePrefix
    refine .bind (returns_check.2 ⟨rfl, rfl⟩) ?_
    rw [h.kind]
    exact .bind (returns_currentKind.2 ⟨rfl, rfl⟩) (by simp only [h.kind, prefixOp]; exact hpostfix)
  have hbinary : Returns (parseBinary (fuel + 4) 1) s e s' :=
    .bind hprefix (returns_parseBinaryTail_rBracket hnext)
  have hternary : Returns (parseTernary (fuel + 5)) s e s' := by
    unfold parseTernary
    refine .bind hbinary (.bind (returns_eat_other (by simp [hnext])) ?_)
    exact .pure
  have hassign : Returns (parseAssign (fuel + 6)) s e s' := by
    unfold parseAssign
    refine .bind hternary (.bind (returns_currentKind.2 ⟨rfl, rfl⟩) ?_)
    rw [hnext]
    exact .pure
  refine ⟨e, ?_, hkind⟩
  unfold parseExpr
  refine .bind hassign (.bind (returns_check.2 ⟨rfl, rfl⟩) ?_)
  rw [hnext]
  exact .pure

end Length

/-! ## Type nodes -/

section Types

variable {fuel : Nat} {node inner : TypeExpr}

/-- A type node one level deeper, from a depth below the limit. -/
theorem returns_parseType_nested {pos n : Nat} (hd : s.depth < nestingLimit)
    (h : Returns (parseTypeInner fuel) { s with depth := s.depth + 1 } node
      { s with depth := s.depth + 1, pos := pos, nextId := n }) :
    Returns (parseType (fuel + 1)) s node { s with pos := pos, nextId := n } :=
  returns_nested_of hd h

/-- Every type node starts where no `volatile` mark stands, and ends with a fresh identifier and
the span of what it read. -/
theorem returns_parseTypeInner_of {x : Span → Bool → TokenKind → Parser TypeExpr}
    (hvol : (peekAt s 0).kind ≠ .kwVolatile)
    (h : Returns (x (peekAt s 0).span false (peekAt s 0).kind) s node s₁) :
    Returns (do
      let start ← currentSpan
      let state ← get
      let volatile ← eatRun .kwVolatile (state.tokens.size + 1)
      let k ← currentKind
      x start volatile k) s node s₁ :=
  .bind (returns_currentSpan.2 ⟨rfl, rfl⟩) (.bind (returns_get.2 ⟨rfl, rfl⟩)
    (.bind (returns_eatRun_other hvol _) (.bind (returns_currentKind.2 ⟨rfl, rfl⟩) h)))

theorem returns_parseTypeInner_word {kind : TypeExprKind} (fuel : Nat) (h : s.Ahead (k :: ks))
    (hk : k.1 = .kwVoid ∧ kind = .void ∨ k.1 = .kwInt16 ∧ kind = .int .w16 ∨
      k.1 = .kwInt32 ∧ kind = .int .w32) :
    ∃ sp, Returns (parseTypeInner (fuel + 1)) s (.mk s.nextId sp false kind)
      { s with pos := s.pos + 1, nextId := s.nextId + 1 } := by
  obtain ⟨sp, hsp⟩ := returns_spanFrom_self { s with pos := s.pos + 1 } (peekAt s 0).span
  have hadvance := returns_advance_ahead h (by rcases hk with ⟨hk, -⟩ | ⟨hk, -⟩ | ⟨hk, -⟩ <;> simp [hk])
  have htail : Returns (do
      let span ← spanFrom (peekAt s 0).span
      let id ← freshId
      pure (TypeExpr.mk id span false kind)) { s with pos := s.pos + 1 } (.mk s.nextId sp false kind)
      { s with pos := s.pos + 1, nextId := s.nextId + 1 } :=
    .bind hsp (.bind (returns_freshId.2 ⟨rfl, rfl⟩) .pure)
  refine ⟨sp, ?_⟩
  unfold parseTypeInner
  rcases hk with ⟨hk, rfl⟩ | ⟨hk, rfl⟩ | ⟨hk, rfl⟩ <;>
  · refine returns_parseTypeInner_of (by simp [h.kind, hk]) ?_
    simp only [h.kind, hk]
    exact .bind hadvance (.bind .pure htail)

theorem returns_parseTypeInner_pointer (h : s.Ahead ((.star, .none) :: ks))
    (hinner : Returns (parseType fuel) { s with pos := s.pos + 1 } inner s₁) :
    ∃ sp, Returns (parseTypeInner (fuel + 1)) s (.mk s₁.nextId sp false (.array inner none))
      { s₁ with nextId := s₁.nextId + 1 } := by
  obtain ⟨sp, hsp⟩ := returns_spanFrom_self s₁ (peekAt s 0).span
  refine ⟨sp, ?_⟩
  unfold parseTypeInner
  refine returns_parseTypeInner_of (by simp [h.kind]) ?_
  simp only [h.kind]
  exact .bind (returns_advance_ahead h (by simp)) (.bind hinner (.bind .pure (.bind hsp
    (.bind (returns_freshId.2 ⟨rfl, rfl⟩) .pure))))

/-- `[N]T` with `N` an integer literal: the length is read by the expression grammar. -/
theorem returns_parseTypeInner_array {len : Nat}
    (h : s.Ahead ((.lBracket, .none) :: (.int, .int len .w16) :: (.rBracket, .none) :: ks))
    (hinner : Returns (parseType (fuel + 7)) { s with pos := s.pos + 3, nextId := s.nextId + 1 }
      inner s₁) :
    ∃ sp size, Returns (parseTypeInner (fuel + 8)) s
      (.mk s₁.nextId sp false (.array inner (some size))) { s₁ with nextId := s₁.nextId + 1 } ∧
      size.kind = .int len .w16 := by
  have hlit := h.advance
  obtain ⟨size, hsize, hkind⟩ := returns_parseExpr_int fuel hlit
  have hclose : ParseState.Ahead { s with pos := s.pos + 1 + 1, nextId := s.nextId + 1 }
      ((.rBracket, .none) :: ks) := hlit.advance
  obtain ⟨sp, hsp⟩ := returns_spanFrom_self s₁ (peekAt s 0).span
  refine ⟨sp, size, ?_, hkind⟩
  unfold parseTypeInner
  refine returns_parseTypeInner_of (by simp [h.kind]) ?_
  simp only [h.kind]
  refine .bind (returns_advance_ahead h (by simp)) (.bind (returns_check.2 ⟨rfl, rfl⟩) ?_)
  rw [hlit.kind]
  exact .bind (returns_map.2 ⟨size, hsize, rfl⟩) (.bind (returns_expect_ahead hclose (by simp))
    (.bind hinner (.bind .pure (.bind hsp (.bind (returns_freshId.2 ⟨rfl, rfl⟩) .pure)))))

/-! Function types: the parameter list, the variadic marker and the result. -/

theorem returns_parseTypeParams_variadic (fuel : Nat)
    (h : s.Ahead ((.ellipsis, .none) :: (.rParen, .none) :: ks)) :
    Returns (parseTypeParams (fuel + 1)) s ([], true) { s with pos := s.pos + 1 } := by
  unfold parseTypeParams parseVariadicMarker
  refine .bind (returns_check.2 ⟨rfl, rfl⟩) ?_
  rw [h.kind, beq_self_eq_true, if_pos rfl]
  refine .bind (.bind (returns_expect_ahead h (by simp)) ?_) .pure
  refine .bind (returns_check.2 ⟨rfl, rfl⟩) ?_
  rw [h.advance.kind]
  exact .pure

theorem returns_parseTypeParams_last {ty : TypeExpr} (hne : (peekAt s 0).kind ≠ .ellipsis)
    (hty : Returns (parseType fuel) s ty s₁) (hnext : (peekAt s₁ 0).kind ≠ .comma) :
    Returns (parseTypeParams (fuel + 1)) s ([ty], false) s₁ := by
  unfold parseTypeParams
  refine .bind (returns_check.2 ⟨rfl, rfl⟩) ?_
  rw [if_neg (by simpa using hne)]
  exact .bind hty (.bind (returns_eat_other hnext) .pure)

theorem returns_parseTypeParams_cons {ty : TypeExpr} {tys : List TypeExpr} {variadic : Bool}
    (hne : (peekAt s 0).kind ≠ .ellipsis) (hty : Returns (parseType fuel) s ty s₁)
    (hcomma : s₁.Ahead ((.comma, .none) :: ks))
    (hrest : Returns (parseTypeParams fuel) { s₁ with pos := s₁.pos + 1 } (tys, variadic) s₂) :
    Returns (parseTypeParams (fuel + 1)) s (ty :: tys, variadic) s₂ := by
  unfold parseTypeParams
  refine .bind (returns_check.2 ⟨rfl, rfl⟩) ?_
  rw [if_neg (by simpa using hne)]
  exact .bind hty (.bind (returns_eat_ahead hcomma (by simp)) (.bind hrest .pure))

theorem returns_parseReturnType {ty : TypeExpr} (h : s.Ahead ((.arrow, .none) :: ks))
    (hty : Returns (parseType fuel) { s with pos := s.pos + 1 } ty s₁) :
    Returns (parseReturnType (fuel + 1)) s ty s₁ := by
  unfold parseReturnType
  exact .bind (returns_eat_ahead h (by simp)) (by rw [if_pos rfl]; exact hty)

/-- `(` and `)` around a list of parameters that does not start with `)`, then the result. -/
theorem returns_parseFunType {ret : TypeExpr} {params : List TypeExpr} {variadic : Bool}
    {ks' : List (TokenKind × TokenValue)} (h : s.Ahead ((.lParen, .none) :: ks))
    (hne : (peekAt { s with pos := s.pos + 1 } 0).kind ≠ .rParen)
    (hparams : Returns (parseTypeParams fuel) { s with pos := s.pos + 1 } (params, variadic) s₁)
    (hclose : s₁.Ahead ((.rParen, .none) :: ks'))
    (hret : Returns (parseReturnType fuel) { s₁ with pos := s₁.pos + 1 } ret s₂) :
    Returns (parseFunType (fuel + 1)) s (.func ret params variadic) s₂ := by
  unfold parseFunType
  refine .bind (returns_expect_ahead h (by simp)) (.bind (returns_check.2 ⟨rfl, rfl⟩) ?_)
  rw [if_neg (by simpa using hne)]
  exact .bind hparams (.bind (returns_expect_ahead hclose (by simp)) (.bind hret .pure))

/-- `()` with no parameter, then the result. -/
theorem returns_parseFunType_nil {ret : TypeExpr}
    (h : s.Ahead ((.lParen, .none) :: (.rParen, .none) :: ks))
    (hret : Returns (parseReturnType fuel) { s with pos := s.pos + 1 + 1 } ret s₁) :
    Returns (parseFunType (fuel + 1)) s (.func ret [] false) s₁ := by
  unfold parseFunType
  refine .bind (returns_expect_ahead h (by simp)) (.bind (returns_check.2 ⟨rfl, rfl⟩) ?_)
  rw [h.advance.kind, beq_self_eq_true, if_pos rfl]
  exact .bind .pure (.bind (returns_expect_ahead h.advance (by simp)) (.bind hret .pure))

theorem returns_parseTypeInner_func {kind : TypeExprKind} (h : s.Ahead ((.kwFun, .none) :: ks))
    (hfun : Returns (parseFunType fuel) { s with pos := s.pos + 1 } kind s₁) :
    ∃ sp, Returns (parseTypeInner (fuel + 1)) s (.mk s₁.nextId sp false kind)
      { s₁ with nextId := s₁.nextId + 1 } := by
  obtain ⟨sp, hsp⟩ := returns_spanFrom_self s₁ (peekAt s 0).span
  refine ⟨sp, ?_⟩
  unfold parseTypeInner
  refine returns_parseTypeInner_of (by simp [h.kind]) ?_
  simp only [h.kind]
  exact .bind (returns_advance_ahead h (by simp)) (.bind hfun (.bind hsp
    (.bind (returns_freshId.2 ⟨rfl, rfl⟩) .pure)))

end Types

end Parser

namespace TypePool

open SolarFront.Parser SolarFront.ParseState

variable {p : TypePool} {t : TypeId} {d : Nat}

/-- The type grammar reads the tokens of the text of `t` back as a node of `t`'s shape, whatever
follows them, with fuel of eight per token and eight more, from a depth that leaves room for
`d` more levels. -/
def ParsesBack (p : TypePool) (d : Nat) (t : TypeId) : Prop :=
  ∀ (fuel : Nat) (s : ParseState) (more : List (TokenKind × TokenValue)),
    s.Ahead (p.tokensOf t ++ more) → 8 * (p.tokensOf t).length + 8 ≤ fuel →
    s.depth + d ≤ nestingLimit →
    ∃ node s', Returns (parseType fuel) s node s' ∧ s.Advanced (p.tokensOf t).length s' ∧
      p.Shape node t

/-- The tokens of a parameter list: the parameters' tokens joined by commas, and the variadic
marker last. -/
def paramTokens (p : TypePool) (params : List TypeId) (variadic : Bool) :
    List (TokenKind × TokenValue) :=
  [(.comma, .none)].intercalate
    (params.map p.tokensOf ++ if variadic then [[(.ellipsis, .none)]] else [])

/-- The text of a `Spelled` type starts with a token that opens a type: neither the variadic
marker nor a closing parenthesis. -/
theorem tokensOf_head (wf : p.WellFormed) (h : p.Spelled d t) :
    ∃ k ks, p.tokensOf t = k :: ks ∧ k.1 ≠ .ellipsis ∧ k.1 ≠ .rParen := by
  cases h with
  | void h => exact ⟨_, _, tokensOf_void h, by decide, by decide⟩
  | @int _ _ w h hw =>
    cases w with
    | w8 => exact absurd rfl hw
    | w16 => exact ⟨_, _, tokensOf_int16 h, by decide, by decide⟩
    | w32 => exact ⟨_, _, tokensOf_int32 h, by decide, by decide⟩
  | pointer h _ => exact ⟨_, _, tokensOf_pointer wf h, by decide, by decide⟩
  | array h _ _ _ => exact ⟨_, _, tokensOf_array wf h, by decide, by decide⟩
  | func h _ _ => exact ⟨_, _, tokensOf_func wf h, by decide, by decide⟩

/-- A parameter list starts with its first parameter's first token. -/
theorem paramTokens_cons {q : TypeId} (qs : List TypeId) (variadic : Bool)
    {k : TokenKind × TokenValue} {ks : List (TokenKind × TokenValue)} (hks : p.tokensOf q = k :: ks) :
    ∃ rest, p.paramTokens (q :: qs) variadic = k :: rest :=
  ⟨[(.comma, .none)].intercalate
      (ks :: (qs.map p.tokensOf ++ if variadic then [[(.ellipsis, .none)]] else [])),
    by simp only [paramTokens, List.map_cons, List.cons_append, hks,
      List.intercalate_cons_cons_left]⟩

/-- A parameter list that is not empty does not start with a closing parenthesis. -/
theorem paramTokens_head (wf : p.WellFormed) {params : List TypeId} {variadic : Bool}
    (hp : ∀ q ∈ params, p.Spelled d q) (hne : params ≠ [] ∨ variadic = true) :
    ∃ k rest, p.paramTokens params variadic = k :: rest ∧ k.1 ≠ .rParen := by
  cases params with
  | nil =>
    obtain rfl : variadic = true := by simpa using hne
    exact ⟨_, _, rfl, by decide⟩
  | cons q qs =>
    obtain ⟨k, ks, hks, -, hk⟩ := tokensOf_head wf (hp q List.mem_cons_self)
    obtain ⟨rest, hrest⟩ := paramTokens_cons qs variadic hks
    exact ⟨k, rest, hrest, hk⟩

/-- A type node one level deeper than `s`. -/
theorem returns_parseType_of {s s₁ : ParseState} {f n : Nat} {node : TypeExpr}
    (hd : s.depth < nestingLimit)
    (h : Returns (parseTypeInner f) { s with depth := s.depth + 1 } node s₁)
    (ha : ({ s with depth := s.depth + 1 } : ParseState).Advanced n s₁) :
    ∃ s', Returns (parseType (f + 1)) s node s' ∧ s.Advanced n s' :=
  ⟨_, returns_nested_of hd h, ha.leave⟩

/-- The parameter list of a function type, each parameter read back by the type grammar, up to
the closing parenthesis. -/
theorem parsesBack_params (wf : p.WellFormed) {params : List TypeId} {variadic : Bool}
    (hp : ∀ q ∈ params, p.Spelled d q ∧ p.ParsesBack d q) (hne : params ≠ [] ∨ variadic = true) :
    ∀ (fuel : Nat) (s : ParseState) (more : List (TokenKind × TokenValue)),
      s.Ahead (p.paramTokens params variadic ++ (.rParen, .none) :: more) →
      8 * (p.paramTokens params variadic).length + 9 ≤ fuel → s.depth + d ≤ nestingLimit →
      ∃ nodes s', Returns (parseTypeParams fuel) s (nodes, variadic) s' ∧
        s.Advanced (p.paramTokens params variadic).length s' ∧ List.Forall₂ p.Shape nodes params := by
  induction params with
  | nil =>
    intro fuel s more ha hfuel hd
    obtain rfl : variadic = true := by simpa using hne
    have htokens : p.paramTokens [] true = [(.ellipsis, .none)] := rfl
    rw [htokens] at ha hfuel ⊢
    obtain ⟨g, rfl⟩ : ∃ g, fuel = g + 1 := ⟨fuel - 1, by simp at hfuel; omega⟩
    exact ⟨[], _, returns_parseTypeParams_variadic g ha, Advanced.one, .nil⟩
  | cons q qs ih =>
    intro fuel s more ha hfuel hd
    obtain ⟨hq, hback⟩ := hp q List.mem_cons_self
    obtain ⟨k, ks, hks, hell, -⟩ := tokensOf_head wf hq
    obtain ⟨g, rfl⟩ : ∃ g, fuel = g + 1 := ⟨fuel - 1, by omega⟩
    -- the list starts with the first parameter's first token
    have hfirst : (peekAt s 0).kind ≠ .ellipsis := by
      obtain ⟨rest, hrest⟩ := paramTokens_cons qs variadic hks
      rw [hrest] at ha
      rw [(show s.Ahead (k :: _) from ha).kind]
      exact hell
    by_cases hlast : qs = [] ∧ variadic = false
    · -- a single parameter, the list closes after it
      obtain ⟨rfl, rfl⟩ := hlast
      have htokens : p.paramTokens [q] false = p.tokensOf q := by simp [paramTokens]
      rw [htokens] at ha hfuel ⊢
      obtain ⟨node, s₁, hrun, hadv, hshape⟩ := hback g s _ ha (by omega) hd
      have hclose := hadv.ahead ha
      exact ⟨[node], s₁, returns_parseTypeParams_last hfirst hrun (by simp [hclose.kind]), hadv,
        .cons hshape .nil⟩
    · -- a parameter, a comma, then the rest of the list
      have hrest : qs ≠ [] ∨ variadic = true := by
        cases variadic <;> simp_all
      have hsplit : p.paramTokens (q :: qs) variadic =
          p.tokensOf q ++ [(.comma, .none)] ++ p.paramTokens qs variadic := by
        unfold paramTokens
        rw [List.map_cons, List.cons_append, List.intercalate_cons_of_ne_nil]
        cases variadic <;> simp_all
      rw [hsplit] at ha hfuel ⊢
      simp only [List.length_append, List.length_singleton] at hfuel ⊢
      rw [List.append_assoc, List.append_assoc] at ha
      obtain ⟨node, s₁, hrun, hadv, hshape⟩ := hback g s _ ha (by omega) hd
      have hcomma := hadv.ahead ha
      obtain ⟨nodes, s₂, hrun', hadv', hshapes⟩ :=
        ih (fun q hq => hp q (List.mem_cons_of_mem _ hq)) hrest g _ more hcomma.advance (by omega)
          (by rw [hadv.depth]; exact hd)
      refine ⟨node :: nodes, s₂, returns_parseTypeParams_cons hfirst hrun hcomma hrun', ?_,
        .cons hshape hshapes⟩
      simpa [Nat.add_assoc] using (hadv.trans Advanced.one).trans hadv'

/-- **The type grammar reads back the text of a type.** The tokens of the text of a `Spelled`
type with `d` levels are read by `parseType` as a node of the type's shape, whatever follows,
from any depth that leaves room for `d` more levels and with fuel of eight per token. -/
theorem parsesBack (wf : p.WellFormed) (h : p.Spelled d t) : p.ParsesBack d t := by
  induction h with
  | void h =>
    intro fuel s more ha hfuel hd
    rw [tokensOf_void h] at ha hfuel ⊢
    obtain ⟨f, rfl⟩ : ∃ f, fuel = f + 2 := ⟨fuel - 2, by simp at hfuel; omega⟩
    obtain ⟨sp, hrun⟩ := returns_parseTypeInner_word f
      (show ParseState.Ahead { s with depth := s.depth + 1 } _ from ha) (.inl ⟨rfl, rfl⟩)
    obtain ⟨s', hrun', hadv⟩ := returns_parseType_of (show s.depth < nestingLimit by omega) hrun Advanced.step
    exact ⟨_, s', hrun', hadv, .void h⟩
  | @int d t w h hw =>
    intro fuel s more ha hfuel hd
    obtain ⟨f, rfl⟩ : ∃ f, fuel = f + 2 := ⟨fuel - 2, by omega⟩
    cases w with
    | w8 => exact absurd rfl hw
    | w16 =>
      rw [tokensOf_int16 h] at ha ⊢
      obtain ⟨sp, hrun⟩ := returns_parseTypeInner_word f
        (show ParseState.Ahead { s with depth := s.depth + 1 } _ from ha) (.inr (.inl ⟨rfl, rfl⟩))
      obtain ⟨s', hrun', hadv⟩ := returns_parseType_of (show s.depth < nestingLimit by omega) hrun Advanced.step
      exact ⟨_, s', hrun', hadv, .int h⟩
    | w32 =>
      rw [tokensOf_int32 h] at ha ⊢
      obtain ⟨sp, hrun⟩ := returns_parseTypeInner_word f
        (show ParseState.Ahead { s with depth := s.depth + 1 } _ from ha) (.inr (.inr ⟨rfl, rfl⟩))
      obtain ⟨s', hrun', hadv⟩ := returns_parseType_of (show s.depth < nestingLimit by omega) hrun Advanced.step
      exact ⟨_, s', hrun', hadv, .int h⟩
  | @pointer d t e h _ ih =>
    intro fuel s more ha hfuel hd
    rw [tokensOf_pointer wf h] at ha hfuel ⊢
    simp only [List.length_append, List.length_singleton] at hfuel ⊢
    obtain ⟨f, rfl⟩ : ∃ f, fuel = f + 2 := ⟨fuel - 2, by omega⟩
    have hdeep : ParseState.Ahead { s with depth := s.depth + 1 }
        ((.star, .none) :: (p.tokensOf e ++ more)) := by
      simp only [List.cons_append] at ha
      exact ha
    -- the element, one level deeper
    obtain ⟨inner, s₁, hinner, hadv, hshape⟩ := ih f _ more hdeep.advance (by omega)
      (by simp only; omega)
    obtain ⟨sp, hrun⟩ := returns_parseTypeInner_pointer hdeep hinner
    obtain ⟨s', hrun', hadv'⟩ := returns_parseType_of (show s.depth < nestingLimit by omega) hrun
      ((Advanced.one.trans hadv).renumber _)
    exact ⟨_, s', hrun', hadv'.cast (by omega), .pointer h hshape⟩
  | @array d t e len h hlen _ _ ih =>
    intro fuel s more ha hfuel hd
    rw [tokensOf_array wf h] at ha hfuel ⊢
    simp only [List.length_append, List.length_singleton] at hfuel ⊢
    obtain ⟨f, rfl⟩ : ∃ f, fuel = f + 9 := ⟨fuel - 9, by omega⟩
    have hdeep : ParseState.Ahead { s with depth := s.depth + 1 }
        ((.lBracket, .none) :: (.int, .int len .w16) :: (.rBracket, .none) ::
          (p.tokensOf e ++ more)) := by
      simp only [List.cons_append, List.append_assoc] at ha
      exact ha
    -- the element after the bracketed length, one level deeper
    have ha₃ : ParseState.Ahead
        { s with depth := s.depth + 1, pos := s.pos + 3, nextId := s.nextId + 1 }
        (p.tokensOf e ++ more) :=
      (show ParseState.Ahead _ ([_, _, _] ++ _) from hdeep).skip rfl rfl
    obtain ⟨inner, s₁, hinner, hadv, hshape⟩ := ih (f + 7) _ more ha₃ (by omega)
      (by simp only; omega)
    obtain ⟨sp, size, hrun, hsize⟩ := returns_parseTypeInner_array hdeep hinner
    have hlen₃ : ParseState.Advanced { s with depth := s.depth + 1 } 3
        { s with depth := s.depth + 1, pos := s.pos + 3, nextId := s.nextId + 1 } :=
      ⟨rfl, rfl, rfl, rfl, rfl⟩
    obtain ⟨s', hrun', hadv'⟩ := returns_parseType_of (show s.depth < nestingLimit by omega) hrun
      ((hlen₃.trans hadv).renumber _)
    exact ⟨_, s', hrun', hadv'.cast (by omega), .array h hsize hshape⟩
  | @func d t ret params variadic h hret hparams ihret ihparams =>
    intro fuel s more ha hfuel hd
    have htokens : p.tokensOf t = (.kwFun, .none) :: (.lParen, .none) ::
        (p.paramTokens params variadic ++ (.rParen, .none) :: (.arrow, .none) :: p.tokensOf ret) := by
      rw [tokensOf_func wf h]
      simp [paramTokens]
    rw [htokens] at ha hfuel ⊢
    simp only [List.length_cons, List.length_append] at hfuel ⊢
    obtain ⟨g, rfl⟩ : ∃ g, fuel = g + 4 := ⟨fuel - 4, by omega⟩
    have hdeep : ParseState.Ahead { s with depth := s.depth + 1 } ((.kwFun, .none) ::
        (.lParen, .none) :: (p.paramTokens params variadic ++
          (.rParen, .none) :: (.arrow, .none) :: (p.tokensOf ret ++ more))) := by
      simp only [List.cons_append, List.append_assoc] at ha
      exact ha
    -- the result type after the arrow, read from wherever the parameter list closed
    have hresult : ∀ s₃ : ParseState, s₃.Ahead ((.rParen, .none) :: (.arrow, .none) ::
        (p.tokensOf ret ++ more)) → s₃.depth = s.depth + 1 → ∃ r s₄,
          Returns (parseReturnType (g + 1)) { s₃ with pos := s₃.pos + 1 } r s₄ ∧
          s₃.Advanced (1 + 1 + (p.tokensOf ret).length) s₄ ∧ p.Shape r ret := by
      intro s₃ hclose hdepth
      obtain ⟨r, s₄, hr, hadv, hshape⟩ := ihret g _ more hclose.advance.advance (by omega)
        (by simp only; omega)
      exact ⟨r, s₄, returns_parseReturnType hclose.advance hr,
        (Advanced.one.trans Advanced.one).trans hadv, hshape⟩
    by_cases hempty : params = [] ∧ variadic = false
    · -- `fun()`: no parameter at all
      obtain ⟨rfl, rfl⟩ := hempty
      obtain ⟨r, s₄, hr, hadv, hshape⟩ := hresult _ hdeep.advance.advance rfl
      have hfun := returns_parseFunType_nil hdeep.advance hr
      obtain ⟨sp, hrun⟩ := returns_parseTypeInner_func hdeep hfun
      obtain ⟨s', hrun', hadv'⟩ := returns_parseType_of (show s.depth < nestingLimit by omega)
        hrun ((((Advanced.one.trans Advanced.one).trans hadv)).renumber _)
      exact ⟨_, s', hrun', hadv'.cast (by simp [paramTokens]; omega), .func h hshape .nil⟩
    · -- `fun(` then the parameter list, `)` and the result
      have hne : params ≠ [] ∨ variadic = true := by
        cases variadic <;> simp_all
      obtain ⟨k, rest, hrest, hk⟩ := paramTokens_head wf hparams hne
      have hlist := hdeep.advance.advance
      obtain ⟨nodes, s₃, hps, hadv₃, hshapes⟩ := parsesBack_params wf
        (fun q hq => ⟨hparams q hq, ihparams q hq⟩) hne (g + 1) _ _ hlist (by omega)
        (by simp only; omega)
      have hclose := hadv₃.ahead hlist
      obtain ⟨r, s₄, hr, hadv₄, hshape⟩ := hresult s₃ hclose (by rw [hadv₃.depth])
      have hfirst : (peekAt { s with depth := s.depth + 1, pos := s.pos + 1 + 1 } 0).kind ≠
          .rParen := by
        rw [hrest] at hlist
        rw [(show ParseState.Ahead _ (k :: _) from hlist).kind]
        exact hk
      have hfun := returns_parseFunType hdeep.advance hfirst hps hclose hr
      obtain ⟨sp, hrun⟩ := returns_parseTypeInner_func hdeep hfun
      obtain ⟨s', hrun', hadv'⟩ := returns_parseType_of (show s.depth < nestingLimit by omega)
        hrun ((((Advanced.one.trans Advanced.one).trans hadv₃).trans hadv₄).renumber _)
      exact ⟨_, s', hrun', hadv'.cast (by omega), .func h hshape hshapes⟩

end TypePool

end SolarFront
