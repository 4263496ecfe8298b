import SolarFront.Proofs.Syntax.Fuel

/-!
# One more level of fuel for the expression grammar

For each expression function, the step from `Settled n` to one level more: unfolding both fuels
and walking the body in lockstep, each call below is settled at `n`. A call made before any
token is read goes to a function of lower rank; one made after a read is paid for by the
sixteen the read adds to the level.
-/

set_option autoImplicit false
set_option linter.all false

namespace SolarFront.Parser

open ParseState

theorem ne_eof_of_isAssign {k : TokenKind} (h : k.isAssign = true) : k ≠ .eof := by
  rintro rfl
  cases h

theorem ne_eof_of_infixOp {k : TokenKind} {p : Nat × Infix} (h : infixOp k = some p) :
    k ≠ .eof := by
  rintro rfl
  cases h

theorem ne_eof_of_prefixOp {k : TokenKind} {op : Prefix} (h : prefixOp k = some op) :
    k ≠ .eof := by
  rintro rfl
  cases h

namespace Settled

variable {n : Nat}

theorem expr_step (h : Settled n) :
    ∀ m ℓ, n ≤ m → 7 ≤ ℓ + 1 → Sim ⊤ n ℓ ℓ (parseExpr (m + 1)) (parseExpr (n + 1)) := by
  intro m ℓ hm hc
  simp only [parseExpr]
  refine (h.assign m ℓ hm (by omega)).bind fun first => ?_
  refine Sim.keeps_bind (Keeps.check _) fun _ => Sim.ite (fun _ => Sim.pure _) fun _ => ?_
  refine (h.commaTail m ℓ hm (by omega)).bind fun rest => ?_
  exact Sim.of_keeps (Keeps.mkExpr _ _)

theorem commaTail_step (h : Settled n) :
    ∀ m ℓ, n ≤ m → 1 ≤ ℓ + 1 → Sim ⊤ n ℓ ℓ (parseCommaTail (m + 1)) (parseCommaTail (n + 1)) := by
  intro m ℓ hm _
  simp only [parseCommaTail]
  refine Sim.eat_ite (by decide) ?_ (Sim.pure _)
  refine (h.assign m _ hm (by omega)).bind fun e => ?_
  refine (h.commaTail m _ hm (by omega)).bind fun rest => ?_
  exact (Sim.pure _).weaken le_rfl (by omega)

theorem assign_step (h : Settled n) :
    ∀ m ℓ, n ≤ m → 6 ≤ ℓ + 1 → Sim ⊤ n ℓ ℓ (parseAssign (m + 1)) (parseAssign (n + 1)) := by
  intro m ℓ hm hc
  simp only [parseAssign]
  refine (h.ternary m ℓ hm (by omega)).bind fun target => ?_
  refine Sim.currentKind_bind fun k => Sim.ite (fun _ => Sim.pure _) fun hk => ?_
  -- an assignment operator is a token of its own, so reading it raises the level
  have hne : k ≠ .eof := ne_eof_of_isAssign (by simpa using hk)
  refine (Sim.advance_of_kind hne).bind fun _ => ?_
  refine (Sim.nested (h.assign m _ hm (by omega))).bind fun value => ?_
  exact (Sim.of_keeps (Keeps.mkExpr _ _)).weaken le_rfl (by omega)

theorem ternary_step (h : Settled n) :
    ∀ m ℓ, n ≤ m → 5 ≤ ℓ + 1 → Sim ⊤ n ℓ ℓ (parseTernary (m + 1)) (parseTernary (n + 1)) := by
  intro m ℓ hm hc
  simp only [parseTernary]
  refine (h.binary 1 m ℓ hm (by omega)).bind fun c => ?_
  refine Sim.eat_not_ite (by decide) ?_ (Sim.pure c)
  refine (Sim.nested (h.expr m _ hm (by omega))).bind fun t => ?_
  refine Sim.keeps_bind (Keeps.expect _) fun _ => ?_
  refine (Sim.nested (h.ternary m _ hm (by omega))).bind fun e => ?_
  exact (Sim.of_keeps (Keeps.mkExpr _ _)).weaken le_rfl (by omega)

theorem binary_step (h : Settled n) : ∀ minPrec m ℓ, n ≤ m → 4 ≤ ℓ + 1 →
    Sim ⊤ n ℓ ℓ (parseBinary (m + 1) minPrec) (parseBinary (n + 1) minPrec) := by
  intro minPrec m ℓ hm hc
  simp only [parseBinary]
  refine (h.unary m ℓ hm (by omega)).bind fun left => ?_
  exact h.binaryTail minPrec left m ℓ hm (by omega)

theorem binaryTail_step (h : Settled n) : ∀ minPrec left m ℓ, n ≤ m → 1 ≤ ℓ + 1 →
    Sim ⊤ n ℓ ℓ (parseBinaryTail (m + 1) minPrec left) (parseBinaryTail (n + 1) minPrec left) := by
  intro minPrec left m ℓ hm _
  simp only [parseBinaryTail]
  refine Sim.currentKind_bind fun k => ?_
  split
  · next prec op hop =>
    refine Sim.ite (fun _ => Sim.pure _) fun _ => ?_
    refine (Sim.advance_of_kind (ne_eof_of_infixOp hop)).bind fun _ => ?_
    refine (Sim.nested (h.binary _ m _ hm (by omega))).bind fun right => ?_
    refine Sim.keeps_bind (Keeps.mkExpr _ _) fun e => ?_
    exact (h.binaryTail minPrec e m _ hm (by omega)).weaken le_rfl (by omega)
  · exact Sim.pure _

theorem unary_step (h : Settled n) :
    ∀ m ℓ, n ≤ m → 3 ≤ ℓ + 1 → Sim ⊤ n ℓ ℓ (parsePrefix (m + 1)) (parsePrefix (n + 1)) := by
  intro m ℓ hm hc
  simp only [parsePrefix]
  refine Sim.keeps_bind (Keeps.check _) fun _ => Sim.ite (fun _ => ?_) fun _ => ?_
  · exact h.sizeof m ℓ hm (by omega)
  refine Sim.currentKind_bind fun k => ?_
  split
  · exact (h.operand m ℓ hm (by omega)).restrict
  · next op hop =>
    refine (Sim.advance_of_kind (ne_eof_of_prefixOp hop)).bind fun start => ?_
    refine (Sim.nested (h.unary m _ hm (by omega))).bind fun operand => ?_
    exact (Sim.of_keeps (Keeps.mkExpr _ _)).weaken le_rfl (by omega)

theorem sizeof_step (h : Settled n) :
    ∀ m ℓ, n ≤ m → 1 ≤ ℓ + 1 → Sim ⊤ n ℓ ℓ (parseSizeof (m + 1)) (parseSizeof (n + 1)) := by
  intro m ℓ hm _
  simp only [parseSizeof]
  refine (Sim.expect (by decide)).bind fun start => ?_
  refine Sim.keeps_bind Keeps.get fun _ => Sim.keeps_bind (Keeps.check _) fun _ => ?_
  refine Sim.ite (fun _ => ?_) fun _ => ?_
  · refine Sim.keeps_bind Keeps.advance fun _ => ?_
    refine (h.type m _ hm (by omega)).bind fun ty => ?_
    refine Sim.keeps_bind (Keeps.expect _) fun _ => ?_
    exact (Sim.of_keeps (Keeps.mkExpr _ _)).weaken le_rfl (by omega)
  · refine (Sim.nested (h.unary m _ hm (by omega))).bind fun e => ?_
    exact (Sim.of_keeps (Keeps.mkExpr _ _)).weaken le_rfl (by omega)

theorem operand_step (h : Settled n) :
    ∀ m ℓ, n ≤ m → 2 ≤ ℓ + 1 → Sim ⊤ n ℓ ℓ (parsePostfix (m + 1)) (parsePostfix (n + 1)) := by
  intro m ℓ hm hc
  simp only [parsePostfix]
  refine (h.primary m ℓ hm (by omega)).bind fun e => ?_
  exact h.operandTail e m ℓ hm (by omega)

theorem operandTail_step (h : Settled n) : ∀ e m ℓ, n ≤ m → 1 ≤ ℓ + 1 →
    Sim ⊤ n ℓ ℓ (parsePostfixTail (m + 1) e) (parsePostfixTail (n + 1) e) := by
  intro e m ℓ hm _
  simp only [parsePostfixTail]
  refine Sim.currentKind_bind fun k => ?_
  -- every suffix starts with a token of its own, so each arm reads it first
  split
  · refine (Sim.advance_of_kind (by decide)).bind fun _ => ?_
    refine (h.callArgs m _ hm (by omega)).bind fun args => ?_
    refine Sim.keeps_bind (Keeps.mkExpr _ _) fun e' => ?_
    exact (h.operandTail e' m _ hm (by omega)).weaken le_rfl (by omega)
  · refine (Sim.advance_of_kind (by decide)).bind fun _ => ?_
    refine (Sim.nested (h.expr m _ hm (by omega))).bind fun i => ?_
    refine Sim.keeps_bind (Keeps.expect _) fun _ => ?_
    refine Sim.keeps_bind (Keeps.mkExpr _ _) fun e' => ?_
    exact (h.operandTail e' m _ hm (by omega)).weaken le_rfl (by omega)
  · refine (Sim.advance_of_kind (by decide)).bind fun _ => ?_
    refine Sim.keeps_bind Keeps.expectIdent fun _ => ?_
    refine Sim.keeps_bind (Keeps.mkExpr _ _) fun e' => ?_
    exact (h.operandTail e' m _ hm (by omega)).weaken le_rfl (by omega)
  · refine (Sim.advance_of_kind (by decide)).bind fun _ => ?_
    refine Sim.keeps_bind (Keeps.mkExpr _ _) fun r => ?_
    refine Sim.keeps_bind Keeps.expectIdent fun _ => ?_
    refine Sim.keeps_bind (Keeps.mkExpr _ _) fun e' => ?_
    exact (h.operandTail e' m _ hm (by omega)).weaken le_rfl (by omega)
  · refine (Sim.advance_of_kind (by decide)).bind fun t => ?_
    refine (h.type m _ hm (by omega)).bind fun ty => ?_
    refine Sim.keeps_bind (Keeps.mkExpr _ _) fun e' => ?_
    exact (h.operandTail e' m _ hm (by omega)).weaken le_rfl (by omega)
  · refine (Sim.advance_of_kind (by decide)).bind fun t => ?_
    refine (h.type m _ hm (by omega)).bind fun ty => ?_
    refine Sim.keeps_bind (Keeps.mkExpr _ _) fun e' => ?_
    exact (h.operandTail e' m _ hm (by omega)).weaken le_rfl (by omega)
  · exact Sim.pure e

theorem callArgs_step (h : Settled n) :
    ∀ m ℓ, n ≤ m → 8 ≤ ℓ + 1 → Sim ⊤ n ℓ ℓ (parseCallArgs (m + 1)) (parseCallArgs (n + 1)) := by
  intro m ℓ hm hc
  simp only [parseCallArgs]
  refine Sim.eat_ite (by decide) ((Sim.pure _).weaken le_rfl (by omega)) ?_
  refine (h.argList m ℓ hm (by omega)).bind fun args => ?_
  exact Sim.keeps_bind (Keeps.expect _) fun _ => Sim.pure args

theorem argList_step (h : Settled n) :
    ∀ m ℓ, n ≤ m → 7 ≤ ℓ + 1 → Sim ⊤ n ℓ ℓ (parseArgList (m + 1)) (parseArgList (n + 1)) := by
  intro m ℓ hm hc
  simp only [parseArgList]
  refine (Sim.nested (h.assign m ℓ hm (by omega))).bind fun a => ?_
  refine Sim.eat_ite (by decide) ?_ (Sim.pure _)
  refine (h.argList m _ hm (by omega)).bind fun rest => ?_
  exact (Sim.pure _).weaken le_rfl (by omega)

theorem primary_step (h : Settled n) :
    ∀ m ℓ, n ≤ m → 1 ≤ ℓ + 1 → Sim ⊤ n ℓ ℓ (parsePrimary (m + 1)) (parsePrimary (n + 1)) := by
  intro m ℓ hm _
  simp only [parsePrimary]
  refine Sim.current_bind fun t => ?_
  split
  · exact Sim.keeps_bind Keeps.advance fun _ => Sim.of_keeps (Keeps.mkExpr _ _)
  · exact Sim.keeps_bind Keeps.advance fun _ => Sim.of_keeps (Keeps.mkExpr _ _)
  · next hk _ =>
    refine (Sim.advance_of_token (by rw [hk]; decide)).bind fun _ => ?_
    refine (h.stringTail _ _ _ m _ hm (by omega)).bind fun units => ?_
    exact (Sim.of_keeps (Keeps.mkExpr _ _)).weaken le_rfl (by omega)
  · next hk =>
    refine (Sim.advance_of_token (by rw [hk]; decide)).bind fun _ => ?_
    refine (Sim.nested (h.expr m _ hm (by omega))).bind fun inner => ?_
    refine Sim.keeps_bind (Keeps.expect _) fun _ => ?_
    exact (Sim.pure inner).weaken le_rfl (by omega)
  · exact Sim.throw _

theorem stringTail_step (h : Settled n) : ∀ enc first acc m ℓ, n ≤ m → 1 ≤ ℓ + 1 →
    Sim ⊤ n ℓ ℓ (parseStringTail (m + 1) enc first acc) (parseStringTail (n + 1) enc first acc) := by
  intro enc first acc m ℓ hm _
  simp only [parseStringTail]
  refine Sim.check_bind .str fun b => Sim.ite (fun hb => ?_) fun _ => Sim.pure acc
  -- the string literal read here is a token of its own
  refine (Sim.advance fun s hs => ?_).bind fun next => ?_
  · have hstr : (peekAt s 0).kind = .str := by simpa [hb] using hs.2
    rw [hstr]
    decide
  split
  · refine Sim.ite (fun _ => ?_) fun _ => ?_
    · exact (h.stringTail _ _ _ m _ hm (by omega)).weaken le_rfl (by omega)
    · refine Sim.keeps_bind (Keeps.report _) fun _ => ?_
      exact (h.stringTail _ _ _ m _ hm (by omega)).weaken le_rfl (by omega)
  · exact (h.stringTail _ _ _ m _ hm (by omega)).weaken le_rfl (by omega)

end Settled

end SolarFront.Parser
