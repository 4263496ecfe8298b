import SolarFront.Proofs.Syntax.Progress
import SolarFront.Proofs.Syntax.Size

/-!
# The parser numbers every node it builds

Each node the parser builds takes a fresh identifier, and the parser never takes one back. So a
parse that returns a tree has handed out at least as many identifiers as the tree has nodes.
`Parser.Numbers x μ` says this of one parser action: every run of `x` moves the next identifier
only forward, and a run that returns `a` moves it by at least `μ a`. A function handed a tree it
extends (the left operand of a binary tail, the operand of a postfix tail, the type of a
declaration) counts only the nodes it adds: its measure is the result's nodes less the given
tree's.

This module has the rules for sequencing and handlers and the parser's own steps; the grammar
itself is in `SolarFront.Proofs.Syntax.NumberingGrammar`.
-/

set_option autoImplicit false
set_option linter.all false

namespace SolarFront

namespace Parser

variable {α β : Type}

/-- Every run of `x` moves the next identifier only forward, and a run that returns `a` moves it
by at least `μ a`. -/
structure Numbers (x : Parser α) (μ : α → Nat) : Prop where
  mono : ∀ s r s', x.run.run s = (r, s') → s.nextId ≤ s'.nextId
  counts : ∀ s a s', Returns x s a s' → s.nextId + μ a ≤ s'.nextId

namespace Numbers

variable {x : Parser α} {μ μ' : α → Nat}

/-- A smaller measure is counted as well. -/
theorem weaken (h : Numbers x μ) (hle : ∀ a, μ' a ≤ μ a) : Numbers x μ' :=
  ⟨h.mono, fun s a s' hr => by
    have := h.counts s a s' hr
    have := hle a
    omega⟩

theorem pure (a : α) (h : μ a = 0) : Numbers (Pure.pure a : Parser α) μ where
  mono s r s' hr := by
    cases hr
    exact le_rfl
  counts s a' s' hr := by
    obtain ⟨rfl, rfl⟩ := returns_pure.1 hr
    omega

theorem throw (e : ParseError) : Numbers (MonadExcept.throw e : Parser α) μ where
  mono s r s' hr := by
    cases hr
    exact le_rfl
  counts _ _ _ hr := absurd hr not_returns_throw

/-- Sequencing: what the first step hands out pays for its result, and what the rest hands out
pays for the rest of the measure. -/
theorem bind {k : α → Parser β} {μ₁ : α → Nat} {μ : β → Nat} (hx : Numbers x μ₁)
    (hk : ∀ a, Numbers (k a) fun b => μ b - μ₁ a) : Numbers (x >>= k) μ where
  mono s r s' hr := by
    rw [run_bind] at hr
    rcases hx₁ : x.run.run s with ⟨r₁, s₁⟩
    rw [hx₁] at hr
    have h₁ := hx.mono s r₁ s₁ hx₁
    cases r₁ with
    | ok a =>
      have := (hk a).mono s₁ r s' hr
      omega
    | error e =>
      cases hr
      exact h₁
  counts s b s' hr := by
    obtain ⟨a, s₁, h₁, h₂⟩ := returns_bind.1 hr
    have := hx.counts s a s₁ h₁
    have := (hk a).counts s₁ b s' h₂
    omega

/-- A step that hands out nothing, then the rest. -/
theorem after {k : α → Parser β} {μ : β → Nat} (hx : Numbers x fun _ => 0)
    (hk : ∀ a, Numbers (k a) μ) : Numbers (x >>= k) μ :=
  hx.bind fun a => (hk a).weaken fun _ => by omega

theorem map {f : α → β} {μ : β → Nat} (hx : Numbers x fun a => μ (f a)) :
    Numbers (f <$> x) μ := by
  rw [map_eq_pure_bind]
  exact hx.bind fun a => .pure _ (by omega)

/-- A handler runs from where the action failed, after what the action handed out. -/
theorem tryCatch {h : ParseError → Parser α} (hx : Numbers x μ) (hh : ∀ e, Numbers (h e) μ) :
    Numbers (tryCatch x h) μ where
  mono s r s' hr := by
    rw [run_tryCatch] at hr
    rcases hx₁ : x.run.run s with ⟨r₁, s₁⟩
    rw [hx₁] at hr
    have h₁ := hx.mono s r₁ s₁ hx₁
    cases r₁ with
    | ok a =>
      cases hr
      exact h₁
    | error e =>
      have := (hh e).mono s₁ r s' hr
      omega
  counts s a s' hr := by
    rcases returns_tryCatch.1 hr with hr | ⟨e, s₁, h₁, h₂⟩
    · exact hx.counts s a s' hr
    · have := hx.mono s _ s₁ h₁
      have := (hh e).counts s₁ a s' h₂
      omega

theorem get : Numbers (get : Parser ParseState) fun _ => 0 where
  mono s r s' hr := by
    cases hr
    exact le_rfl
  counts s _ s' hr := by
    obtain ⟨-, rfl⟩ := returns_get.1 hr
    omega

/-- An update that leaves the next identifier where it is. -/
theorem modify {f : ParseState → ParseState} (hf : ∀ s, (f s).nextId = s.nextId) :
    Numbers (modify f : Parser Unit) fun _ => 0 where
  mono s r s' hr := by
    cases hr
    exact (hf s).ge
  counts s _ s' hr := by
    obtain rfl := returns_modify.1 hr
    rw [hf]
    omega

/-- A loop whose every round hands out nothing. -/
theorem forIn {γ : Type} {l : List γ} {init : β} {f : γ → β → Parser (ForInStep β)}
    (hf : ∀ a b, Numbers (f a b) fun _ => 0) : Numbers (ForIn.forIn l init f) fun _ => 0 := by
  induction l generalizing init with
  | nil => exact .pure _ rfl
  | cons a l ih =>
    rw [List.forIn_cons]
    refine (hf a init).after fun step => ?_
    cases step with
    | done b => exact .pure _ rfl
    | yield b => exact ih

end Numbers

/-! ## The parser's steps

Reading tokens, reporting and skipping hand out no identifier; `freshId` hands out one, and so
each node maker pays for the one node it adds. -/

section Steps

variable {μ : α → Nat}

theorem Numbers.current : Numbers current fun _ => 0 := by
  unfold Parser.current
  exact Numbers.get.after fun _ => .pure _ rfl

theorem Numbers.currentKind : Numbers currentKind fun _ => 0 := by
  unfold Parser.currentKind
  exact Numbers.get.after fun _ => .pure _ rfl

theorem Numbers.currentSpan : Numbers currentSpan fun _ => 0 := by
  unfold Parser.currentSpan
  exact Numbers.get.after fun _ => .pure _ rfl

theorem Numbers.peekKind (n : Nat) : Numbers (peekKind n) fun _ => 0 := by
  unfold Parser.peekKind
  exact Numbers.get.after fun _ => .pure _ rfl

theorem Numbers.previousSpan : Numbers previousSpan fun _ => 0 := by
  unfold Parser.previousSpan
  refine Numbers.get.after fun s => ?_
  split <;> exact .pure _ rfl

theorem Numbers.atEnd : Numbers atEnd fun _ => 0 := by
  unfold Parser.atEnd
  exact Numbers.currentKind.after fun _ => .pure _ rfl

theorem Numbers.check (k : TokenKind) : Numbers (check k) fun _ => 0 := by
  unfold Parser.check
  exact Numbers.currentKind.after fun _ => .pure _ rfl

theorem Numbers.advance : Numbers advance fun _ => 0 := by
  unfold Parser.advance
  refine Numbers.current.after fun t => ?_
  dsimp only
  split
  · exact (Numbers.modify fun _ => by rfl).after fun _ => .pure _ rfl
  · exact .pure _ rfl

theorem Numbers.eat (k : TokenKind) : Numbers (eat k) fun _ => 0 := by
  unfold Parser.eat
  refine (Numbers.check k).after fun b => ?_
  split
  · exact Numbers.advance.after fun _ => .pure _ rfl
  · exact .pure _ rfl

theorem Numbers.expect (k : TokenKind) : Numbers (expect k) fun _ => 0 := by
  unfold Parser.expect
  refine Numbers.current.after fun t => ?_
  split
  · exact Numbers.advance
  · exact .throw _

theorem Numbers.expectIdent : Numbers expectIdent fun _ => 0 := by
  unfold Parser.expectIdent
  refine Numbers.current.after fun t => ?_
  split
  · exact Numbers.advance.after fun _ => .pure _ rfl
  · exact .throw _

theorem Numbers.expectInt : Numbers expectInt fun _ => 0 := by
  unfold Parser.expectInt
  refine Numbers.current.after fun t => ?_
  split
  · exact Numbers.advance.after fun _ => .pure _ rfl
  · exact .throw _

theorem Numbers.spanFrom (start : Span) : Numbers (spanFrom start) fun _ => 0 := by
  unfold Parser.spanFrom
  exact Numbers.previousSpan.after fun _ => .pure _ rfl

theorem Numbers.report (e : ParseError) : Numbers (report e) fun _ => 0 := by
  unfold Parser.report
  exact Numbers.modify fun _ => by rfl

theorem Numbers.recover (e : ParseError) : Numbers (recover e) fun _ => 0 := by
  unfold Parser.recover
  exact (Numbers.report e).after fun _ => Numbers.modify fun _ => by rfl

theorem Numbers.exhausted : Numbers (exhausted : Parser α) μ := by
  unfold Parser.exhausted
  exact Numbers.currentSpan.after fun _ => .throw _

theorem Numbers.expectCloseBrace (open_ : Span) : Numbers (expectCloseBrace open_) fun _ => 0 := by
  unfold Parser.expectCloseBrace
  refine Numbers.atEnd.after fun b => ?_
  split
  · exact Numbers.currentSpan.after fun _ => .throw _
  · exact (Numbers.expect _).after fun _ => .pure _ rfl

/-- Handing out an identifier moves the next one by one. -/
theorem Numbers.freshId : Numbers freshId fun _ => 1 where
  mono s r s' hr := by
    cases hr
    exact Nat.le_succ _
  counts s n s' hr := by
    obtain ⟨-, rfl⟩ := returns_freshId.1 hr
    exact le_rfl

theorem Numbers.mkExpr (kind : ExprKind) (start : Span) :
    Numbers (mkExpr kind start) fun e => e.size - kind.size := by
  unfold Parser.mkExpr
  refine (Numbers.spanFrom start).after fun span => Numbers.freshId.bind fun id => .pure _ ?_
  simp only [Expr.size]
  omega

theorem Numbers.mkStmt (kind : StmtKind) (start : Span) :
    Numbers (mkStmt kind start) fun st => st.size - kind.size := by
  unfold Parser.mkStmt
  refine (Numbers.spanFrom start).after fun span => Numbers.freshId.bind fun id => .pure _ ?_
  simp only [Stmt.size]
  omega

theorem Numbers.nested {x : Parser α} (h : Numbers x μ) : Numbers (nested x) μ where
  mono s r s' hr := by
    rw [run_nested] at hr
    split at hr
    · cases hr
      exact le_rfl
    · rcases hx : x.run.run { s with depth := s.depth + 1 } with ⟨r₁, s₁⟩
      rw [hx] at hr
      cases hr
      exact h.mono { s with depth := s.depth + 1 } _ s₁ hx
  counts s a s' hr := by
    obtain ⟨s₁, h₁, rfl⟩ := returns_nested hr
    exact h.counts { s with depth := s.depth + 1 } a s₁ h₁

theorem Numbers.leadingComment : Numbers leadingComment fun _ => 0 := by
  unfold Parser.leadingComment
  refine Numbers.get.after fun s => Numbers.previousSpan.after fun _ =>
    Numbers.currentSpan.after fun _ => ?_
  dsimp only
  split <;> exact .pure _ rfl

theorem Numbers.parseModifiers (fuel : Nat) (m : Modifiers) :
    Numbers (parseModifiers fuel m) fun _ => 0 := by
  induction fuel generalizing m with
  | zero => exact .pure _ rfl
  | succ fuel ih =>
    rw [Parser.parseModifiers]
    refine Numbers.current.after fun t => ?_
    dsimp only
    split
    · exact .pure _ rfl
    · split
      · exact (Numbers.report _).after fun _ => Numbers.advance.after fun _ => ih _
      · exact Numbers.advance.after fun _ => ih _

theorem Numbers.parseDeclHead : Numbers parseDeclHead fun _ => 0 := by
  unfold Parser.parseDeclHead
  exact Numbers.currentSpan.after fun _ => Numbers.leadingComment.after fun _ =>
    Numbers.get.after fun _ => (Numbers.parseModifiers _ _).after fun _ => .pure _ rfl

theorem Numbers.rejectModifiers (m : Modifiers) (what : String) (allowed : List TokenKind) :
    Numbers (rejectModifiers m what allowed) fun _ => 0 := by
  unfold Parser.rejectModifiers
  refine (Numbers.forIn fun entry _ => ?_).after fun _ => .pure _ rfl
  obtain ⟨k, span?⟩ := entry
  dsimp only
  split
  · split
    · exact (Numbers.report _).after fun _ => .pure _ rfl
    · exact .pure _ rfl
  · exact .pure _ rfl

theorem Numbers.eatRun (k : TokenKind) (fuel : Nat) : Numbers (eatRun k fuel) fun _ => 0 := by
  induction fuel with
  | zero => exact .pure _ rfl
  | succ fuel ih =>
    rw [Parser.eatRun]
    refine (Numbers.eat k).after fun b => ?_
    split
    · exact ih.after fun _ => .pure _ rfl
    · exact .pure _ rfl

theorem Numbers.parseVariadicMarker : Numbers parseVariadicMarker fun _ => 0 := by
  unfold Parser.parseVariadicMarker
  refine (Numbers.expect _).after fun _ => (Numbers.check _).after fun b => ?_
  split
  · exact .throw _
  · exact .pure _ rfl

theorem Numbers.parseJumpLabel : Numbers parseJumpLabel fun _ => 0 := by
  unfold Parser.parseJumpLabel
  refine (Numbers.check _).after fun b => ?_
  have hrest : ∀ label, Numbers (do let _ ← Parser.expect .semicolon; Pure.pure label : Parser (Option Label))
      fun _ => 0 := fun _ => (Numbers.expect _).after fun _ => .pure _ rfl
  dsimp only
  split
  · refine Numbers.expectIdent.after fun name => ?_
    obtain ⟨n, s⟩ := name
    exact Numbers.after (.pure _ rfl) hrest
  · exact Numbers.after (.pure _ rfl) hrest

/-- A declaration node pays for itself; its type and its kind come paid for. -/
theorem Numbers.finishDecl (head : DeclHead) (name : String) (nameSpan : Span) (ty : TypeExpr)
    (kind : DeclKind) :
    Numbers (finishDecl head name nameSpan ty kind) fun d => d.size - (ty.size + kind.size) := by
  unfold Parser.finishDecl
  refine (Numbers.spanFrom _).after fun span => Numbers.freshId.bind fun id => .pure _ ?_
  simp only [Decl.size]
  omega

/-- A block item is a statement, or nothing after an error was recorded and skipped. -/
theorem Numbers.blockItem {stmt : Parser Stmt} (h : Numbers stmt Stmt.size) :
    Numbers (blockItem stmt) Stmt.optSize := by
  unfold Parser.blockItem
  refine (Numbers.map h : Numbers (some <$> stmt) Stmt.optSize).tryCatch fun e => ?_
  dsimp only
  split
  · exact .throw _
  · exact (Numbers.recover e).after fun _ => .pure _ rfl

end Steps

end Parser

end SolarFront
