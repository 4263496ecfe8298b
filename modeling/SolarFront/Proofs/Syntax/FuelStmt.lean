import SolarFront.Proofs.Syntax.FuelExpr

/-!
# One more level of fuel for types, statements and declarations

The steps from `Settled n` to one level more for the rest of the grammar, and with them every
level: `settled` says that every grammar function agrees with itself at any larger fuel from
states with room for its rank.

A block loops over its items; each item that does not close the block reads a token
(`Sim.blockItem`), which pays for the next round. The statement and declaration functions read
a token whenever they succeed, and say so by raising the level.
-/

set_option autoImplicit false
set_option linter.all false

namespace SolarFront.Parser

open ParseState

/-- The end of every type node: its span and its number. -/
theorem Keeps.typeNode (start : Span) (volatile : Bool) (kind : TypeExprKind) :
    Keeps (do let span ← Parser.spanFrom start; return TypeExpr.mk (← Parser.freshId) span volatile kind) :=
  (Keeps.spanFrom _).bind fun _ => Keeps.freshId.bind fun _ => Keeps.pure _

namespace Settled

variable {n : Nat}

theorem type_step (h : Settled n) :
    ∀ m ℓ, n ≤ m → 2 ≤ ℓ + 1 → Sim ⊤ n ℓ ℓ (parseType (m + 1)) (parseType (n + 1)) := by
  intro m ℓ hm hc
  simp only [parseType]
  exact Sim.nested (h.typeInner m ℓ hm (by omega))

theorem typeInner_step (h : Settled n) :
    ∀ m ℓ, n ≤ m → 1 ≤ ℓ + 1 → Sim ⊤ n ℓ ℓ (parseTypeInner (m + 1)) (parseTypeInner (n + 1)) := by
  intro m ℓ hm _
  simp only [parseTypeInner]
  refine Sim.keeps_bind Keeps.currentSpan fun start => ?_
  refine Sim.keeps_bind Keeps.get fun _ => Sim.keeps_bind (Keeps.eatRun _ _) fun volatile => ?_
  refine Sim.currentKind_bind fun k => ?_
  -- the arms that go on to a type or an expression read their keyword or bracket first
  split
  · exact Sim.keeps_bind Keeps.advance fun _ => Sim.keeps_bind (Keeps.pure _) fun kind =>
      Sim.of_keeps (Keeps.typeNode start volatile kind)
  · exact Sim.keeps_bind Keeps.advance fun _ => Sim.keeps_bind (Keeps.pure _) fun kind =>
      Sim.of_keeps (Keeps.typeNode start volatile kind)
  · exact Sim.keeps_bind Keeps.advance fun _ => Sim.keeps_bind (Keeps.pure _) fun kind =>
      Sim.of_keeps (Keeps.typeNode start volatile kind)
  · exact Sim.keeps_bind Keeps.expectIdent fun _ => Sim.keeps_bind (Keeps.pure _) fun kind =>
      Sim.of_keeps (Keeps.typeNode start volatile kind)
  · refine (Sim.advance_of_kind (by decide)).bind fun _ => Sim.drop ?_
    refine (h.type m _ hm (by omega)).bind fun inner => ?_
    exact Sim.keeps_bind (Keeps.pure _) fun kind => Sim.of_keeps (Keeps.typeNode start volatile kind)
  · refine (Sim.advance_of_kind (by decide)).bind fun _ => Sim.drop ?_
    refine Sim.keeps_bind (Keeps.check _) fun _ => Sim.ite (fun _ => ?_) fun _ => ?_
    · refine Sim.keeps_bind (Keeps.pure _) fun size => Sim.keeps_bind (Keeps.expect _) fun _ => ?_
      refine (h.type m _ hm (by omega)).bind fun inner => ?_
      exact Sim.keeps_bind (Keeps.pure _) fun kind =>
        Sim.of_keeps (Keeps.typeNode start volatile kind)
    · refine ((h.expr m _ hm (by omega)).map some).bind fun size => ?_
      refine Sim.keeps_bind (Keeps.expect _) fun _ => ?_
      refine (h.type m _ hm (by omega)).bind fun inner => ?_
      exact Sim.keeps_bind (Keeps.pure _) fun kind =>
        Sim.of_keeps (Keeps.typeNode start volatile kind)
  · refine (Sim.advance_of_kind (by decide)).bind fun _ => Sim.drop ?_
    refine (h.funType m _ hm (by omega)).bind fun kind => ?_
    exact Sim.of_keeps (Keeps.typeNode start volatile kind)
  · refine (Sim.advance_of_kind (by decide)).bind fun _ => Sim.drop ?_
    refine (h.recordBody m _ hm (by omega)).bind fun members => ?_
    exact Sim.keeps_bind (Keeps.pure _) fun kind => Sim.of_keeps (Keeps.typeNode start volatile kind)
  · refine (Sim.advance_of_kind (by decide)).bind fun _ => Sim.drop ?_
    refine (h.recordBody m _ hm (by omega)).bind fun members => ?_
    exact Sim.keeps_bind (Keeps.pure _) fun kind => Sim.of_keeps (Keeps.typeNode start volatile kind)
  · refine (Sim.advance_of_kind (by decide)).bind fun _ => Sim.drop ?_
    refine Sim.keeps_bind (Keeps.expect _) fun _ => ?_
    refine (h.expr m _ hm (by omega)).bind fun e => ?_
    refine Sim.keeps_bind (Keeps.expect _) fun _ => ?_
    exact Sim.keeps_bind (Keeps.pure _) fun kind => Sim.of_keeps (Keeps.typeNode start volatile kind)
  · exact Sim.keeps_bind Keeps.currentSpan fun _ => Sim.throw_bind _

theorem funType_step (h : Settled n) :
    ∀ m ℓ, n ≤ m → 1 ≤ ℓ + 1 → Sim ⊤ n ℓ ℓ (parseFunType (m + 1)) (parseFunType (n + 1)) := by
  intro m ℓ hm _
  simp only [parseFunType]
  refine (Sim.expect (by decide)).bind fun _ => Sim.drop ?_
  refine Sim.keeps_bind (Keeps.check _) fun _ => Sim.ite
    (fun _ => Sim.keeps_bind (Keeps.pure _) fun params => ?_)
    (fun _ => (h.typeParams m _ hm (by omega)).bind fun params => ?_)
  -- with or without parameters, the closing parenthesis and the return type
  all_goals
    refine Sim.keeps_bind (Keeps.expect _) fun _ => ?_
    exact (h.returnType m _ hm (by omega)).bind fun ret => Sim.pure _

theorem typeParams_step (h : Settled n) :
    ∀ m ℓ, n ≤ m → 3 ≤ ℓ + 1 → Sim ⊤ n ℓ ℓ (parseTypeParams (m + 1)) (parseTypeParams (n + 1)) := by
  intro m ℓ hm hc
  simp only [parseTypeParams]
  refine Sim.keeps_bind (Keeps.check _) fun _ => Sim.ite (fun _ => ?_) fun _ => ?_
  · exact Sim.keeps_bind Keeps.parseVariadicMarker fun _ => Sim.pure _
  refine (h.type m ℓ hm (by omega)).bind fun t => ?_
  refine Sim.eat_ite (by decide) ?_ (Sim.pure _)
  refine (h.typeParams m _ hm (by omega)).bind fun rest => ?_
  exact (Sim.pure _).weaken le_rfl (by omega)

theorem returnType_step (h : Settled n) :
    ∀ m ℓ, n ≤ m → 1 ≤ ℓ + 1 → Sim ⊤ n ℓ ℓ (parseReturnType (m + 1)) (parseReturnType (n + 1)) := by
  intro m ℓ hm _
  simp only [parseReturnType]
  refine Sim.eat_ite (by decide) (Sim.drop (h.type m _ hm (by omega))) ?_
  exact Sim.keeps_bind Keeps.previousSpan fun _ => Sim.keeps_bind Keeps.freshId fun _ => Sim.pure _

theorem recordBody_step (h : Settled n) :
    ∀ m ℓ, n ≤ m → 1 ≤ ℓ + 1 → Sim ⊤ n ℓ ℓ (parseRecordBody (m + 1)) (parseRecordBody (n + 1)) := by
  intro m ℓ hm _
  simp only [parseRecordBody]
  refine (Sim.expect (by decide)).bind fun open_ => Sim.drop ?_
  refine (h.members m _ hm (by omega)).bind fun members => ?_
  refine Sim.keeps_bind (Keeps.expectCloseBrace _) fun _ => ?_
  exact Sim.ite (fun _ => Sim.keeps_bind (Keeps.spanFrom _) fun _ =>
    Sim.keeps_bind (Keeps.report _) fun _ => Sim.pure _) fun _ => Sim.pure _

theorem members_step (h : Settled n) :
    ∀ m ℓ, n ≤ m → 1 ≤ ℓ + 1 → Sim ⊤ n ℓ ℓ (parseMembers (m + 1)) (parseMembers (n + 1)) := by
  intro m ℓ hm _
  simp only [parseMembers]
  refine Sim.keeps_bind (Keeps.check _) fun _ => Sim.keeps_bind Keeps.atEnd fun _ =>
    Sim.ite (fun _ => Sim.pure _) fun _ => ?_
  refine Sim.expectIdent.bind fun name => Sim.drop ?_
  refine Sim.keeps_bind (Keeps.expect _) fun _ => ?_
  refine (h.type m _ hm (by omega)).bind fun ty => ?_
  refine Sim.keeps_bind (Keeps.eat _) fun _ => Sim.ite
    (fun _ => Sim.keeps_bind ((Keeps.expectInt.map _).map _) fun bits => ?_)
    (fun _ => Sim.keeps_bind (Keeps.pure _) fun bits => ?_)
  -- with or without a width, the member's span and the rest of the list
  all_goals
    refine Sim.keeps_bind (Keeps.spanFrom _) fun span => ?_
    refine Sim.keeps_bind (Keeps.eat _) fun _ => Sim.ite (fun _ => ?_) fun _ => Sim.pure _
    exact (h.members m _ hm (by omega)).bind fun rest => Sim.pure _

theorem block_step (h : Settled n) :
    ∀ m ℓ, n ≤ m → 1 ≤ ℓ + 1 → Sim ⊤ n ℓ (ℓ + 16) (parseBlock (m + 1)) (parseBlock (n + 1)) := by
  intro m ℓ hm _
  simp only [parseBlock]
  refine (Sim.expect (by decide)).bind fun open_ => ?_
  refine (h.blockItems _ m _ hm (by omega)).bind fun stmts => ?_
  exact Sim.of_keeps (Keeps.mkStmt _ _)

theorem blockItems_step (h : Settled n) : ∀ open_ m ℓ, n ≤ m → 10 ≤ ℓ + 1 →
    Sim ⊤ n ℓ ℓ (parseBlockItems (m + 1) open_) (parseBlockItems (n + 1) open_) := by
  intro open_ m ℓ hm hc
  simp only [parseBlockItems]
  refine Sim.currentKind_bind fun k => ?_
  split
  · exact Sim.keeps_bind Keeps.advance fun _ => Sim.pure _
  · exact Sim.keeps_bind Keeps.currentSpan fun _ => Sim.throw _
  · next hbrace heof =>
    -- an item that neither closes the block nor ends the file reads a token, which pays for
    -- the next round
    have hitem : ∀ s : ParseState, (peekAt s 0).kind = k →
        (peekAt s 0).kind ≠ .eof ∧ (peekAt s 0).kind ≠ .rBrace := fun s hs => by
      rw [hs]
      exact ⟨heof, hbrace⟩
    refine (Sim.blockItem (fun s hs => hitem s hs.2) (h.stmt m ℓ hm (by omega))).bind fun r => ?_
    refine (h.blockItems _ m _ hm (by omega)).bind fun rest => ?_
    exact (Sim.pure _).weaken le_rfl (by omega)

theorem stmt_step (h : Settled n) :
    ∀ m ℓ, n ≤ m → 9 ≤ ℓ + 1 → Sim ⊤ n ℓ (ℓ + 16) (parseStmt (m + 1)) (parseStmt (n + 1)) := by
  intro m ℓ hm hc
  simp only [parseStmt]
  exact Sim.nested (h.stmtInner m ℓ hm (by omega))

theorem stmtInner_step (h : Settled n) :
    ∀ m ℓ, n ≤ m → 8 ≤ ℓ + 1 → Sim ⊤ n ℓ (ℓ + 16) (parseStmtInner (m + 1)) (parseStmtInner (n + 1)) := by
  intro m ℓ hm hc
  simp only [parseStmtInner]
  refine Sim.keeps_bind Keeps.currentSpan fun start => Sim.currentKind_bind fun k => ?_
  refine Sim.ite (fun hk => ?_) fun _ => Sim.ite (fun _ => ?_) fun _ => Sim.ite (fun _ => ?_)
    fun _ => Sim.ite (fun _ => ?_) fun _ => ?_
  · obtain rfl : k = .semicolon := by simpa using hk
    exact (Sim.advance_of_kind (by decide)).bind fun _ => Sim.of_keeps (Keeps.mkStmt _ _)
  · exact (h.block m ℓ hm (by omega)).restrict
  · exact (h.localDecl m ℓ hm (by omega)).restrict.bind fun _ => Sim.of_keeps (Keeps.mkStmt _ _)
  · exact (h.keywordStmt _ _ m ℓ hm (by omega)).restrict
  refine Sim.keeps_bind (Keeps.peekKind 1) fun _ => Sim.ite (fun _ => ?_) fun _ => ?_
  · -- a label: its name is read first
    refine Sim.expectIdent.bind fun name => ?_
    refine Sim.keeps_bind Keeps.advance fun _ => Sim.keeps_bind Keeps.currentKind fun c => ?_
    refine Sim.ite (fun _ => ?_) fun _ => Sim.keeps_bind Keeps.currentSpan fun _ => Sim.throw _
    exact (h.keywordStmt _ _ m _ hm (by omega)).weaken le_rfl (by omega)
  · refine (h.expr m ℓ hm (by omega)).bind fun e => ?_
    exact (Sim.expect (by decide)).bind fun _ => Sim.of_keeps (Keeps.mkStmt _ _)

theorem keywordStmt_step (h : Settled n) : ∀ label start m ℓ, n ≤ m → 1 ≤ ℓ + 1 →
    Sim ⊤ n ℓ (ℓ + 16) (parseKeywordStmt (m + 1) label start)
      (parseKeywordStmt (n + 1) label start) := by
  intro label start m ℓ hm _
  simp only [parseKeywordStmt]
  refine Sim.currentKind_bind fun k => ?_
  -- every statement keyword is a token of its own, read first
  split
  · refine (Sim.advance_of_kind (by decide)).bind fun _ => ?_
    refine (h.condition m _ hm (by omega)).bind fun c => ?_
    refine (h.stmt m _ hm (by omega)).bind fun t => ?_
    refine (h.elseBranch m _ hm (by omega)).bind fun e => ?_
    exact (Sim.of_keeps (Keeps.mkStmt _ _)).weaken le_rfl (by omega)
  · refine (Sim.advance_of_kind (by decide)).bind fun _ => ?_
    refine (h.condition m _ hm (by omega)).bind fun c => ?_
    refine (h.stmt m _ hm (by omega)).bind fun body => ?_
    refine (h.elseBranch m _ hm (by omega)).bind fun e => ?_
    exact (Sim.of_keeps (Keeps.mkStmt _ _)).weaken le_rfl (by omega)
  · refine (Sim.advance_of_kind (by decide)).bind fun _ => ?_
    refine Sim.keeps_bind (Keeps.expect _) fun _ => ?_
    refine (h.optionalExpr _ m _ hm (by omega)).bind fun init => ?_
    refine Sim.keeps_bind (Keeps.expect _) fun _ => ?_
    refine (h.optionalExpr _ m _ hm (by omega)).bind fun cond => ?_
    refine Sim.keeps_bind (Keeps.expect _) fun _ => ?_
    refine (h.optionalExpr _ m _ hm (by omega)).bind fun step => ?_
    refine Sim.keeps_bind (Keeps.expect _) fun _ => ?_
    refine (h.stmt m _ hm (by omega)).bind fun body => ?_
    refine (h.elseBranch m _ hm (by omega)).bind fun e => ?_
    exact (Sim.of_keeps (Keeps.mkStmt _ _)).weaken le_rfl (by omega)
  · refine (Sim.advance_of_kind (by decide)).bind fun _ => ?_
    exact Sim.keeps_bind Keeps.parseJumpLabel fun _ => Sim.of_keeps (Keeps.mkStmt _ _)
  · refine (Sim.advance_of_kind (by decide)).bind fun _ => ?_
    exact Sim.keeps_bind Keeps.parseJumpLabel fun _ => Sim.of_keeps (Keeps.mkStmt _ _)
  · refine (Sim.advance_of_kind (by decide)).bind fun _ => ?_
    exact Sim.keeps_bind Keeps.parseJumpLabel fun _ => Sim.of_keeps (Keeps.mkStmt _ _)
  · refine (Sim.advance_of_kind (by decide)).bind fun _ => ?_
    refine (h.optionalExpr _ m _ hm (by omega)).bind fun v => ?_
    exact Sim.keeps_bind (Keeps.expect _) fun _ => Sim.of_keeps (Keeps.mkStmt _ _)
  · exact Sim.keeps_bind Keeps.currentSpan fun _ => Sim.throw _

theorem condition_step (h : Settled n) :
    ∀ m ℓ, n ≤ m → 1 ≤ ℓ + 1 → Sim ⊤ n ℓ ℓ (parseCondition (m + 1)) (parseCondition (n + 1)) := by
  intro m ℓ hm _
  simp only [parseCondition]
  refine (Sim.expect (by decide)).bind fun _ => Sim.drop ?_
  refine (h.expr m _ hm (by omega)).bind fun c => ?_
  exact Sim.keeps_bind (Keeps.expect _) fun _ => Sim.pure c

theorem elseBranch_step (h : Settled n) :
    ∀ m ℓ, n ≤ m → 1 ≤ ℓ + 1 → Sim ⊤ n ℓ ℓ (parseElse (m + 1)) (parseElse (n + 1)) := by
  intro m ℓ hm _
  simp only [parseElse]
  refine Sim.eat_ite (by decide) ?_ (Sim.pure _)
  exact ((h.stmt m _ hm (by omega)).bind fun _ => Sim.pure _).weaken le_rfl (by omega)

theorem optionalExpr_step (h : Settled n) : ∀ terminator m ℓ, n ≤ m → 8 ≤ ℓ + 1 →
    Sim ⊤ n ℓ ℓ (parseOptionalExpr (m + 1) terminator) (parseOptionalExpr (n + 1) terminator) := by
  intro terminator m ℓ hm hc
  simp only [parseOptionalExpr]
  refine Sim.keeps_bind (Keeps.check _) fun _ => Sim.ite (fun _ => Sim.pure _) fun _ => ?_
  exact (h.expr m ℓ hm (by omega)).bind fun e => Sim.pure _

theorem init_step (h : Settled n) :
    ∀ m ℓ, n ≤ m → 8 ≤ ℓ + 1 → Sim ⊤ n ℓ ℓ (parseInit (m + 1)) (parseInit (n + 1)) := by
  intro m ℓ hm hc
  simp only [parseInit]
  exact Sim.nested (h.initInner m ℓ hm (by omega))

theorem initInner_step (h : Settled n) :
    ∀ m ℓ, n ≤ m → 7 ≤ ℓ + 1 → Sim ⊤ n ℓ ℓ (parseInitInner (m + 1)) (parseInitInner (n + 1)) := by
  intro m ℓ hm hc
  simp only [parseInitInner]
  refine Sim.keeps_bind Keeps.currentSpan fun start => Sim.currentKind_bind fun k => ?_
  split
  · refine (Sim.advance_of_kind (by decide)).bind fun open_ => Sim.drop ?_
    refine (h.elements m _ hm (by omega)).bind fun elems => ?_
    exact Sim.keeps_bind (Keeps.expectCloseBrace _) fun _ => Sim.of_keeps (Keeps.mkExpr _ _)
  · refine Sim.keeps_bind (Keeps.peekKind 1) fun _ => Sim.ite (fun _ => ?_) fun _ =>
      h.assign m ℓ hm (by omega)
    refine Sim.keeps_bind Keeps.advance fun _ => ?_
    exact (h.fieldInits m ℓ hm (by omega)).bind fun _ => Sim.of_keeps (Keeps.mkExpr _ _)
  · refine Sim.keeps_bind (Keeps.peekKind 1) fun _ => Sim.ite (fun _ => ?_) fun _ =>
      h.assign m ℓ hm (by omega)
    refine Sim.keeps_bind Keeps.advance fun _ => ?_
    exact (h.fieldInits m ℓ hm (by omega)).bind fun _ => Sim.of_keeps (Keeps.mkExpr _ _)
  · exact (h.assign m ℓ hm (by omega)).restrict

theorem elements_step (h : Settled n) :
    ∀ m ℓ, n ≤ m → 9 ≤ ℓ + 1 → Sim ⊤ n ℓ ℓ (parseElements (m + 1)) (parseElements (n + 1)) := by
  intro m ℓ hm hc
  simp only [parseElements]
  refine Sim.keeps_bind (Keeps.check _) fun _ => Sim.keeps_bind Keeps.atEnd fun _ =>
    Sim.ite (fun _ => Sim.pure _) fun _ => ?_
  refine (h.init m ℓ hm (by omega)).bind fun e => ?_
  refine Sim.eat_ite (by decide) ?_ (Sim.pure _)
  exact ((h.elements m _ hm (by omega)).bind fun _ => Sim.pure _).weaken le_rfl (by omega)

theorem fieldInits_step (h : Settled n) :
    ∀ m ℓ, n ≤ m → 1 ≤ ℓ + 1 → Sim ⊤ n ℓ ℓ (parseFieldInits (m + 1)) (parseFieldInits (n + 1)) := by
  intro m ℓ hm _
  simp only [parseFieldInits]
  refine (Sim.expect (by decide)).bind fun open_ => Sim.drop ?_
  refine (h.fieldList _ m _ hm (by omega)).bind fun fields => ?_
  exact Sim.keeps_bind (Keeps.expectCloseBrace _) fun _ => Sim.pure _

theorem fieldList_step (h : Settled n) : ∀ seen m ℓ, n ≤ m → 1 ≤ ℓ + 1 →
    Sim ⊤ n ℓ ℓ (parseFieldList (m + 1) seen) (parseFieldList (n + 1) seen) := by
  intro seen m ℓ hm _
  simp only [parseFieldList]
  refine Sim.keeps_bind (Keeps.check _) fun _ => Sim.keeps_bind Keeps.atEnd fun _ =>
    Sim.ite (fun _ => Sim.pure _) fun _ => ?_
  refine Sim.expectIdent.bind fun name => Sim.drop ?_
  refine Sim.keeps_bind (Keeps.expect _) fun _ => ?_
  refine (h.init m _ hm (by omega)).bind fun value => ?_
  refine Sim.keeps_bind (Keeps.spanFrom _) fun span => ?_
  split
  · refine Sim.keeps_bind (Keeps.report _) fun _ => Sim.keeps_bind (Keeps.pure _) fun r => ?_
    refine Sim.keeps_bind (Keeps.eat _) fun _ => Sim.ite (fun _ => ?_) fun _ => Sim.pure _
    exact (h.fieldList _ m _ hm (by omega)).bind fun _ => Sim.pure _
  · refine Sim.keeps_bind (Keeps.pure _) fun r => ?_
    refine Sim.keeps_bind (Keeps.eat _) fun _ => Sim.ite (fun _ => ?_) fun _ => Sim.pure _
    exact (h.fieldList _ m _ hm (by omega)).bind fun _ => Sim.pure _

theorem decl_step (h : Settled n) :
    ∀ m ℓ, n ≤ m → 3 ≤ ℓ + 1 → Sim ⊤ n ℓ (ℓ + 16) (parseDecl (m + 1)) (parseDecl (n + 1)) := by
  intro m ℓ hm hc
  simp only [parseDecl]
  exact Sim.keeps_bind Keeps.parseDeclHead fun head => h.declBody head m ℓ hm (by omega)

theorem localDecl_step (h : Settled n) :
    ∀ m ℓ, n ≤ m → 3 ≤ ℓ + 1 → Sim ⊤ n ℓ (ℓ + 16) (parseLocalDecl (m + 1)) (parseLocalDecl (n + 1)) := by
  intro m ℓ hm hc
  simp only [parseLocalDecl]
  refine Sim.keeps_bind Keeps.parseDeclHead fun head => Sim.keeps_bind (Keeps.check _) fun _ => ?_
  exact Sim.ite (fun _ => Sim.keeps_bind Keeps.currentSpan fun _ => Sim.throw_bind _)
    fun _ => h.declBody head m ℓ hm (by omega)

theorem declBody_step (h : Settled n) : ∀ head m ℓ, n ≤ m → 2 ≤ ℓ + 1 →
    Sim ⊤ n ℓ (ℓ + 16) (parseDeclBody (m + 1) head) (parseDeclBody (n + 1) head) := by
  intro head m ℓ hm hc
  simp only [parseDeclBody]
  refine Sim.currentKind_bind fun k => ?_
  -- every declaration keyword is a token of its own; the record arms read their name
  split
  · exact (h.function head m ℓ hm (by omega)).restrict
  · refine Sim.keeps_bind (Keeps.rejectModifiers _ _ _) fun _ => ?_
    refine (Sim.expect (by decide)).bind fun _ => ?_
    refine Sim.keeps_bind Keeps.expectIdent fun name => Sim.keeps_bind (Keeps.expect _) fun _ => ?_
    refine (h.type m _ hm (by omega)).bind fun ty => ?_
    refine Sim.keeps_bind (Keeps.eat _) fun _ => Sim.ite
      (fun _ => ((h.init m _ hm (by omega)).map some).bind fun value => ?_)
      (fun _ => Sim.keeps_bind (Keeps.pure _) fun value => ?_)
    all_goals
      exact Sim.keeps_bind (Keeps.expect _) fun _ => Sim.of_keeps (Keeps.finishDecl _ _ _ _ _)
  · refine Sim.keeps_bind (Keeps.rejectModifiers _ _ _) fun _ => ?_
    refine (Sim.expect (by decide)).bind fun _ => ?_
    refine Sim.keeps_bind Keeps.expectIdent fun name => Sim.keeps_bind (Keeps.expect _) fun _ => ?_
    refine (h.type m _ hm (by omega)).bind fun ty => ?_
    refine Sim.keeps_bind (Keeps.expect _) fun _ => ?_
    refine (h.assign m _ hm (by omega)).bind fun value => ?_
    exact Sim.keeps_bind (Keeps.expect _) fun _ => Sim.of_keeps (Keeps.finishDecl _ _ _ _ _)
  · refine Sim.keeps_bind (Keeps.rejectModifiers _ _ _) fun _ => ?_
    refine (Sim.expect (by decide)).bind fun _ => ?_
    refine Sim.keeps_bind Keeps.expectIdent fun name => Sim.keeps_bind (Keeps.expect _) fun _ => ?_
    refine (h.type m _ hm (by omega)).bind fun ty => ?_
    exact Sim.keeps_bind (Keeps.expect _) fun _ => Sim.of_keeps (Keeps.finishDecl _ _ _ _ _)
  · refine Sim.keeps_bind (Keeps.rejectModifiers _ _ _) fun _ => ?_
    refine Sim.keeps_bind Keeps.advance fun keyword => Sim.expectIdent.bind fun name => ?_
    refine (h.recordBody m _ hm (by omega)).bind fun members => ?_
    refine Sim.keeps_bind Keeps.freshId fun _ => Sim.keeps_bind (Keeps.spanFrom _) fun _ => ?_
    exact Sim.keeps_bind (Keeps.expect _) fun _ => Sim.of_keeps (Keeps.finishDecl _ _ _ _ _)
  · refine Sim.keeps_bind (Keeps.rejectModifiers _ _ _) fun _ => ?_
    refine Sim.keeps_bind Keeps.advance fun keyword => Sim.expectIdent.bind fun name => ?_
    refine (h.recordBody m _ hm (by omega)).bind fun members => ?_
    refine Sim.keeps_bind Keeps.freshId fun _ => Sim.keeps_bind (Keeps.spanFrom _) fun _ => ?_
    exact Sim.keeps_bind (Keeps.expect _) fun _ => Sim.of_keeps (Keeps.finishDecl _ _ _ _ _)
  · exact Sim.keeps_bind Keeps.currentSpan fun _ => Sim.throw _

theorem function_step (h : Settled n) : ∀ head m ℓ, n ≤ m → 1 ≤ ℓ + 1 →
    Sim ⊤ n ℓ (ℓ + 16) (parseFun (m + 1) head) (parseFun (n + 1) head) := by
  intro head m ℓ hm _
  simp only [parseFun]
  refine (Sim.expect (by decide)).bind fun _ => ?_
  refine Sim.keeps_bind Keeps.expectIdent fun name => Sim.keeps_bind Keeps.currentSpan fun _ => ?_
  refine Sim.keeps_bind (Keeps.expect _) fun _ => Sim.keeps_bind (Keeps.check _) fun _ => Sim.ite
    (fun _ => Sim.keeps_bind (Keeps.pure _) fun params => ?_)
    (fun _ => (h.params m _ hm (by omega)).bind fun params => ?_)
  -- with or without parameters, the signature and then a body or `;`
  all_goals
    refine Sim.keeps_bind (Keeps.expect _) fun _ => ?_
    refine (h.returnType m _ hm (by omega)).bind fun ret => ?_
    refine Sim.keeps_bind Keeps.freshId fun _ => Sim.keeps_bind (Keeps.spanFrom _) fun _ => ?_
    refine Sim.keeps_bind (Keeps.eat _) fun _ => Sim.ite
      (fun _ => Sim.keeps_bind (Keeps.pure _) fun _ => Sim.of_keeps (Keeps.finishDecl _ _ _ _ _))
      (fun _ => ?_)
    refine ((h.block m _ hm (by omega)).map some).bind fun body => ?_
    exact (Sim.of_keeps (Keeps.finishDecl _ _ _ _ _)).weaken le_rfl (by omega)

theorem params_step (h : Settled n) :
    ∀ m ℓ, n ≤ m → 1 ≤ ℓ + 1 → Sim ⊤ n ℓ ℓ (parseParams (m + 1)) (parseParams (n + 1)) := by
  intro m ℓ hm _
  simp only [parseParams]
  refine Sim.keeps_bind (Keeps.check _) fun _ => Sim.ite (fun _ => ?_) fun _ => ?_
  · exact Sim.keeps_bind Keeps.parseVariadicMarker fun _ => Sim.pure _
  refine Sim.expectIdent.bind fun name => Sim.drop ?_
  refine Sim.keeps_bind (Keeps.expect _) fun _ => ?_
  refine (h.type m _ hm (by omega)).bind fun t => ?_
  refine Sim.keeps_bind (Keeps.eat _) fun _ => Sim.ite (fun _ => ?_) fun _ => Sim.pure _
  exact (h.params m _ hm (by omega)).bind fun _ => Sim.pure _

/-- One more level of fuel: every step, lifted. -/
theorem succ (h : Settled n) : Settled (n + 1) where
  expr := Sim.lift parseExpr (by decide) h.expr_step
  commaTail := Sim.lift parseCommaTail (by decide) h.commaTail_step
  assign := Sim.lift parseAssign (by decide) h.assign_step
  ternary := Sim.lift parseTernary (by decide) h.ternary_step
  binary := fun minPrec =>
    Sim.lift (fun k => parseBinary k minPrec) (by decide) (h.binary_step minPrec)
  binaryTail := fun minPrec left =>
    Sim.lift (fun k => parseBinaryTail k minPrec left) (by decide) (h.binaryTail_step minPrec left)
  unary := Sim.lift parsePrefix (by decide) h.unary_step
  sizeof := Sim.lift parseSizeof (by decide) h.sizeof_step
  operand := Sim.lift parsePostfix (by decide) h.operand_step
  operandTail := fun e => Sim.lift (fun k => parsePostfixTail k e) (by decide) (h.operandTail_step e)
  callArgs := Sim.lift parseCallArgs (by decide) h.callArgs_step
  argList := Sim.lift parseArgList (by decide) h.argList_step
  primary := Sim.lift parsePrimary (by decide) h.primary_step
  stringTail := fun enc first acc => Sim.lift (fun k => parseStringTail k enc first acc)
    (by decide) (h.stringTail_step enc first acc)
  type := Sim.lift parseType (by decide) h.type_step
  typeInner := Sim.lift parseTypeInner (by decide) h.typeInner_step
  funType := Sim.lift parseFunType (by decide) h.funType_step
  typeParams := Sim.lift parseTypeParams (by decide) h.typeParams_step
  returnType := Sim.lift parseReturnType (by decide) h.returnType_step
  recordBody := Sim.lift parseRecordBody (by decide) h.recordBody_step
  members := Sim.lift parseMembers (by decide) h.members_step
  block := Sim.lift_moving parseBlock (by decide) h.block_step
  blockItems := fun open_ =>
    Sim.lift (fun k => parseBlockItems k open_) (by decide) (h.blockItems_step open_)
  stmt := Sim.lift_moving parseStmt (by decide) h.stmt_step
  stmtInner := Sim.lift_moving parseStmtInner (by decide) h.stmtInner_step
  keywordStmt := fun label start => Sim.lift_moving (fun k => parseKeywordStmt k label start)
    (by decide) (h.keywordStmt_step label start)
  condition := Sim.lift parseCondition (by decide) h.condition_step
  elseBranch := Sim.lift parseElse (by decide) h.elseBranch_step
  optionalExpr := fun terminator => Sim.lift (fun k => parseOptionalExpr k terminator)
    (by decide) (h.optionalExpr_step terminator)
  init := Sim.lift parseInit (by decide) h.init_step
  initInner := Sim.lift parseInitInner (by decide) h.initInner_step
  elements := Sim.lift parseElements (by decide) h.elements_step
  fieldInits := Sim.lift parseFieldInits (by decide) h.fieldInits_step
  fieldList := fun seen =>
    Sim.lift (fun k => parseFieldList k seen) (by decide) (h.fieldList_step seen)
  decl := Sim.lift_moving parseDecl (by decide) h.decl_step
  localDecl := Sim.lift_moving parseLocalDecl (by decide) h.localDecl_step
  declBody := fun head =>
    Sim.lift_moving (fun k => parseDeclBody k head) (by decide) (h.declBody_step head)
  function := fun head => Sim.lift_moving (fun k => parseFun k head) (by decide) (h.function_step head)
  params := Sim.lift parseParams (by decide) h.params_step

end Settled

/-- Every fuel is settled: by induction on the fuel, one level at a time. -/
theorem settled : ∀ n, Settled n
  | 0 => settled_zero
  | n + 1 => (settled n).succ

end SolarFront.Parser
