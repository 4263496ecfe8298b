import SolarFront.Proofs.Syntax.ParsedSpans

/-!
# The nesting depth comes back

Every construct that may contain itself is parsed one nesting level deeper (`Parser.nested`):
the depth goes up before it and down after it, whether it succeeds or fails, and at the limit it
is refused before the depth changes. So a construct that leaves the depth as it found it is
left, nested, at the depth it started from (`nested_depth`).

Every grammar function, at every fuel, keeps the state of the parse (`GrammarKeeps`): the same
tokens, the cursor no earlier, and the depth as it was. The proof is one induction on the fuel,
one step for each function, following the function's text. The rounds of the declaration loop
keep it too, so every declaration of a parse starts and ends at depth zero: the limit counts
only the nesting of the declaration being read, never what earlier ones left behind
(`nesting_depth_restored`).
-/

set_option autoImplicit false
set_option linter.all false

namespace SolarFront.Parser

open ParseState

section Nesting

variable {α : Type}

/-- A construct that leaves the depth where it found it is left, nested, at the depth it started
from: on success, on failure, and when the limit refuses it. -/
theorem nested_depth {x : Parser α} {s : ParseState}
    (hx : ∀ r s', x.run.run { s with depth := s.depth + 1 } = (r, s') → s'.depth = s.depth + 1) :
    ∀ r s', (nested x).run.run s = (r, s') → s'.depth = s.depth := by
  intro r s' hrun
  rw [run_nested] at hrun
  split at hrun
  · cases hrun
    rfl
  · rcases hx' : x.run.run { s with depth := s.depth + 1 } with ⟨r₁, s₁⟩
    rw [hx'] at hrun
    cases hrun
    show s₁.depth - 1 = s.depth
    rw [hx _ _ hx']
    rfl

/-- Nesting a construct that keeps the state keeps it. -/
theorem Keeps.nested {x : Parser α} (hx : Keeps x) : Keeps (nested x) := by
  intro s hs r s' hrun
  rw [run_nested] at hrun
  split at hrun
  · cases hrun
    exact Kept.refl hs
  · rcases hx' : x.run.run { s with depth := s.depth + 1 } with ⟨r₁, s₁⟩
    rw [hx'] at hrun
    cases hrun
    have hk := hx { s with depth := s.depth + 1 } ⟨hs.last_eof, hs.pos_lt⟩ _ _ hx'
    exact ⟨⟨hk.inside.last_eof, hk.inside.pos_lt⟩, hk.tokens, hk.pos, by simp [hk.depth]⟩

/-- A block item keeps the state: a statement, or an error recorded and skipped. -/
theorem Keeps.blockItem {x : Parser Stmt} (hx : Keeps x) : Keeps (blockItem x) := by
  intro s hs r s' hrun
  rw [run_blockItem] at hrun
  rcases hr : x.run.run s with ⟨r₁, s₁⟩
  rw [hr] at hrun
  have hk := hx s hs _ _ hr
  cases r₁ with
  | ok a =>
    cases hrun
    exact hk
  | error e =>
    dsimp only at hrun
    split at hrun
    · cases hrun
      exact hk
    · cases hrun
      exact hk.trans (Keeps.recover e s₁ hk.inside _ _ (run_recover e))

end Nesting

/-- Every grammar function at fuel `n` keeps the state of the parse. -/
structure GrammarKeeps (n : Nat) : Prop where
  expr : Keeps (parseExpr n)
  commaTail : Keeps (parseCommaTail n)
  assign : Keeps (parseAssign n)
  ternary : Keeps (parseTernary n)
  binary : ∀ minPrec, Keeps (parseBinary n minPrec)
  binaryTail : ∀ minPrec left, Keeps (parseBinaryTail n minPrec left)
  unary : Keeps (parsePrefix n)
  sizeof : Keeps (parseSizeof n)
  operand : Keeps (parsePostfix n)
  operandTail : ∀ e, Keeps (parsePostfixTail n e)
  callArgs : Keeps (parseCallArgs n)
  argList : Keeps (parseArgList n)
  primary : Keeps (parsePrimary n)
  stringTail : ∀ enc first acc, Keeps (parseStringTail n enc first acc)
  type : Keeps (parseType n)
  typeInner : Keeps (parseTypeInner n)
  funType : Keeps (parseFunType n)
  typeParams : Keeps (parseTypeParams n)
  returnType : Keeps (parseReturnType n)
  recordBody : Keeps (parseRecordBody n)
  members : Keeps (parseMembers n)
  block : Keeps (parseBlock n)
  blockItems : ∀ open_, Keeps (parseBlockItems n open_)
  stmt : Keeps (parseStmt n)
  stmtInner : Keeps (parseStmtInner n)
  keywordStmt : ∀ label start, Keeps (parseKeywordStmt n label start)
  condition : Keeps (parseCondition n)
  elseBranch : Keeps (parseElse n)
  optionalExpr : ∀ terminator, Keeps (parseOptionalExpr n terminator)
  init : Keeps (parseInit n)
  initInner : Keeps (parseInitInner n)
  elements : Keeps (parseElements n)
  fieldInits : Keeps (parseFieldInits n)
  fieldList : ∀ seen, Keeps (parseFieldList n seen)
  decl : Keeps (parseDecl n)
  localDecl : Keeps (parseLocalDecl n)
  declBody : ∀ head, Keeps (parseDeclBody n head)
  function : ∀ head, Keeps (parseFun n head)
  params : Keeps (parseParams n)

/-- With no fuel every grammar function fails at once. -/
theorem grammarKeeps_zero : GrammarKeeps 0 :=
  ⟨Keeps.exhausted, Keeps.exhausted, Keeps.exhausted, Keeps.exhausted, fun _ => Keeps.exhausted,
    fun _ _ => Keeps.exhausted, Keeps.exhausted, Keeps.exhausted, Keeps.exhausted,
    fun _ => Keeps.exhausted, Keeps.exhausted, Keeps.exhausted, Keeps.exhausted,
    fun _ _ _ => Keeps.exhausted, Keeps.exhausted, Keeps.exhausted, Keeps.exhausted,
    Keeps.exhausted, Keeps.exhausted, Keeps.exhausted, Keeps.exhausted, Keeps.exhausted,
    fun _ => Keeps.exhausted, Keeps.exhausted, Keeps.exhausted, fun _ _ => Keeps.exhausted,
    Keeps.exhausted, Keeps.exhausted, fun _ => Keeps.exhausted, Keeps.exhausted, Keeps.exhausted,
    Keeps.exhausted, Keeps.exhausted, fun _ => Keeps.exhausted, Keeps.exhausted, Keeps.exhausted,
    fun _ => Keeps.exhausted, fun _ => Keeps.exhausted, Keeps.exhausted⟩

namespace GrammarKeeps

variable {n : Nat} (h : GrammarKeeps n)
include h

theorem expr_succ : Keeps (parseExpr (n + 1)) := by
  simp only [parseExpr]
  refine h.assign.bind fun first => (Keeps.check _).bind fun _ => Keeps.ite (Keeps.pure _) ?_
  exact h.commaTail.bind fun rest => Keeps.mkExpr _ _

theorem commaTail_succ : Keeps (parseCommaTail (n + 1)) := by
  simp only [parseCommaTail]
  refine (Keeps.eat _).bind fun _ => Keeps.ite ?_ (Keeps.pure _)
  exact h.assign.bind fun e => h.commaTail.bind fun rest => Keeps.pure _

theorem assign_succ : Keeps (parseAssign (n + 1)) := by
  simp only [parseAssign]
  refine h.ternary.bind fun target => Keeps.currentKind.bind fun k => Keeps.ite (Keeps.pure _) ?_
  exact Keeps.advance.bind fun _ => (Keeps.nested h.assign).bind fun value => Keeps.mkExpr _ _

theorem ternary_succ : Keeps (parseTernary (n + 1)) := by
  simp only [parseTernary]
  refine (h.binary 1).bind fun c => (Keeps.eat _).bind fun _ => Keeps.ite (Keeps.pure c) ?_
  refine (Keeps.nested h.expr).bind fun t => (Keeps.expect _).bind fun _ => ?_
  exact (Keeps.nested h.ternary).bind fun e => Keeps.mkExpr _ _

theorem binary_succ (minPrec : Nat) : Keeps (parseBinary (n + 1) minPrec) := by
  simp only [parseBinary]
  exact h.unary.bind fun left => h.binaryTail minPrec left

theorem binaryTail_succ (minPrec : Nat) (left : Expr) :
    Keeps (parseBinaryTail (n + 1) minPrec left) := by
  simp only [parseBinaryTail]
  refine Keeps.currentKind.bind fun k => ?_
  split
  · refine Keeps.ite (Keeps.pure _) (Keeps.advance.bind fun _ => ?_)
    refine (Keeps.nested (h.binary _)).bind fun right => ?_
    exact (Keeps.mkExpr _ _).bind fun e => h.binaryTail minPrec e
  · exact Keeps.pure _

theorem unary_succ : Keeps (parsePrefix (n + 1)) := by
  simp only [parsePrefix]
  refine (Keeps.check _).bind fun _ => Keeps.ite h.sizeof (Keeps.currentKind.bind fun k => ?_)
  split
  · exact h.operand
  · exact Keeps.advance.bind fun start => (Keeps.nested h.unary).bind fun operand =>
      Keeps.mkExpr _ _

theorem sizeof_succ : Keeps (parseSizeof (n + 1)) := by
  simp only [parseSizeof]
  refine (Keeps.expect _).bind fun start => Keeps.get.bind fun _ => (Keeps.check _).bind fun _ => ?_
  refine Keeps.ite ?_ ((Keeps.nested h.unary).bind fun e => Keeps.mkExpr _ _)
  refine Keeps.advance.bind fun _ => h.type.bind fun ty => ?_
  exact (Keeps.expect _).bind fun _ => Keeps.mkExpr _ _

theorem operand_succ : Keeps (parsePostfix (n + 1)) := by
  simp only [parsePostfix]
  exact h.primary.bind fun e => h.operandTail e

theorem operandTail_succ (e : Expr) : Keeps (parsePostfixTail (n + 1) e) := by
  simp only [parsePostfixTail]
  refine Keeps.currentKind.bind fun k => ?_
  split
  · refine Keeps.advance.bind fun _ => h.callArgs.bind fun args => ?_
    exact (Keeps.mkExpr _ _).bind fun e' => h.operandTail e'
  · refine Keeps.advance.bind fun _ => (Keeps.nested h.expr).bind fun i => ?_
    exact (Keeps.expect _).bind fun _ => (Keeps.mkExpr _ _).bind fun e' => h.operandTail e'
  · refine Keeps.advance.bind fun _ => Keeps.expectIdent.bind fun _ => ?_
    exact (Keeps.mkExpr _ _).bind fun e' => h.operandTail e'
  · refine Keeps.advance.bind fun _ => (Keeps.mkExpr _ _).bind fun r => ?_
    exact Keeps.expectIdent.bind fun _ => (Keeps.mkExpr _ _).bind fun e' => h.operandTail e'
  · refine Keeps.advance.bind fun t => h.type.bind fun ty => ?_
    exact (Keeps.mkExpr _ _).bind fun e' => h.operandTail e'
  · refine Keeps.advance.bind fun t => h.type.bind fun ty => ?_
    exact (Keeps.mkExpr _ _).bind fun e' => h.operandTail e'
  · exact Keeps.pure e

theorem callArgs_succ : Keeps (parseCallArgs (n + 1)) := by
  simp only [parseCallArgs]
  refine (Keeps.eat _).bind fun _ => Keeps.ite (Keeps.pure _) ?_
  exact h.argList.bind fun args => (Keeps.expect _).bind fun _ => Keeps.pure args

theorem argList_succ : Keeps (parseArgList (n + 1)) := by
  simp only [parseArgList]
  refine (Keeps.nested h.assign).bind fun a => (Keeps.eat _).bind fun _ => Keeps.ite ?_ (Keeps.pure _)
  exact h.argList.bind fun rest => Keeps.pure _

theorem primary_succ : Keeps (parsePrimary (n + 1)) := by
  simp only [parsePrimary]
  refine Keeps.current.bind fun t => ?_
  split
  · exact Keeps.advance.bind fun _ => Keeps.mkExpr _ _
  · exact Keeps.advance.bind fun _ => Keeps.mkExpr _ _
  · exact Keeps.advance.bind fun _ => (h.stringTail _ _ _).bind fun units => Keeps.mkExpr _ _
  · refine Keeps.advance.bind fun _ => (Keeps.nested h.expr).bind fun inner => ?_
    exact (Keeps.expect _).bind fun _ => Keeps.pure inner
  · exact Keeps.throw _

theorem stringTail_succ (enc : Encoding) (first : Span) (acc : List Nat) :
    Keeps (parseStringTail (n + 1) enc first acc) := by
  simp only [parseStringTail]
  refine (Keeps.check _).bind fun b => Keeps.ite (Keeps.advance.bind fun next => ?_) (Keeps.pure acc)
  split
  · exact Keeps.ite (h.stringTail _ _ _) ((Keeps.report _).bind fun _ => h.stringTail _ _ _)
  · exact h.stringTail _ _ _

theorem type_succ : Keeps (parseType (n + 1)) := by
  simp only [parseType]
  exact Keeps.nested h.typeInner

theorem typeInner_succ : Keeps (parseTypeInner (n + 1)) := by
  simp only [parseTypeInner]
  refine Keeps.currentSpan.bind fun start => Keeps.get.bind fun _ => ?_
  refine (Keeps.eatRun _ _).bind fun volatile => Keeps.currentKind.bind fun k => ?_
  -- each arm reads what the type is made of, and every type ends in its node
  split
  · exact Keeps.advance.bind fun _ => (Keeps.pure _).bind fun kind => Keeps.typeNode start volatile kind
  · exact Keeps.advance.bind fun _ => (Keeps.pure _).bind fun kind => Keeps.typeNode start volatile kind
  · exact Keeps.advance.bind fun _ => (Keeps.pure _).bind fun kind => Keeps.typeNode start volatile kind
  · exact Keeps.expectIdent.bind fun _ => (Keeps.pure _).bind fun kind =>
      Keeps.typeNode start volatile kind
  · refine Keeps.advance.bind fun _ => h.type.bind fun inner => ?_
    exact (Keeps.pure _).bind fun kind => Keeps.typeNode start volatile kind
  · refine Keeps.advance.bind fun _ => (Keeps.check _).bind fun _ => Keeps.ite
      ((Keeps.pure _).bind fun size => ?_) ((h.expr.map some).bind fun size => ?_)
    -- with or without a size, the closing bracket and the element type
    all_goals
      refine (Keeps.expect _).bind fun _ => h.type.bind fun inner => ?_
      exact (Keeps.pure _).bind fun kind => Keeps.typeNode start volatile kind
  · exact Keeps.advance.bind fun _ => h.funType.bind fun kind => Keeps.typeNode start volatile kind
  · refine Keeps.advance.bind fun _ => h.recordBody.bind fun members => ?_
    exact (Keeps.pure _).bind fun kind => Keeps.typeNode start volatile kind
  · refine Keeps.advance.bind fun _ => h.recordBody.bind fun members => ?_
    exact (Keeps.pure _).bind fun kind => Keeps.typeNode start volatile kind
  · refine Keeps.advance.bind fun _ => (Keeps.expect _).bind fun _ => h.expr.bind fun e => ?_
    refine (Keeps.expect _).bind fun _ => ?_
    exact (Keeps.pure _).bind fun kind => Keeps.typeNode start volatile kind
  · exact Keeps.currentSpan.bind fun _ => (Keeps.throw _).bind fun kind =>
      Keeps.typeNode start volatile kind

theorem funType_succ : Keeps (parseFunType (n + 1)) := by
  simp only [parseFunType]
  refine (Keeps.expect _).bind fun _ => (Keeps.check _).bind fun _ => Keeps.ite
    ((Keeps.pure _).bind fun params => ?_) (h.typeParams.bind fun params => ?_)
  all_goals exact (Keeps.expect _).bind fun _ => h.returnType.bind fun ret => Keeps.pure _

theorem typeParams_succ : Keeps (parseTypeParams (n + 1)) := by
  simp only [parseTypeParams]
  refine (Keeps.check _).bind fun _ => Keeps.ite
    (Keeps.parseVariadicMarker.bind fun _ => Keeps.pure _) ?_
  refine h.type.bind fun t => (Keeps.eat _).bind fun _ => Keeps.ite ?_ (Keeps.pure _)
  exact h.typeParams.bind fun rest => Keeps.pure _

theorem returnType_succ : Keeps (parseReturnType (n + 1)) := by
  simp only [parseReturnType]
  refine (Keeps.eat _).bind fun _ => Keeps.ite h.type ?_
  exact Keeps.previousSpan.bind fun _ => Keeps.freshId.bind fun _ => Keeps.pure _

theorem recordBody_succ : Keeps (parseRecordBody (n + 1)) := by
  simp only [parseRecordBody]
  refine (Keeps.expect _).bind fun open_ => h.members.bind fun members => ?_
  refine (Keeps.expectCloseBrace _).bind fun _ => Keeps.ite ?_ (Keeps.pure _)
  exact (Keeps.spanFrom _).bind fun _ => (Keeps.report _).bind fun _ => Keeps.pure _

theorem members_succ : Keeps (parseMembers (n + 1)) := by
  simp only [parseMembers]
  refine (Keeps.check _).bind fun _ => Keeps.atEnd.bind fun _ => Keeps.ite (Keeps.pure _) ?_
  refine Keeps.expectIdent.bind fun name => (Keeps.expect _).bind fun _ => h.type.bind fun ty => ?_
  refine (Keeps.eat _).bind fun _ => Keeps.ite
    (((Keeps.expectInt.map _).map _).bind fun bits => ?_) ((Keeps.pure _).bind fun bits => ?_)
  -- with or without a width, the member's span and the rest of the list
  all_goals
    refine (Keeps.spanFrom _).bind fun span => (Keeps.eat _).bind fun _ =>
      Keeps.ite ?_ (Keeps.pure _)
    exact h.members.bind fun rest => Keeps.pure _

theorem block_succ : Keeps (parseBlock (n + 1)) := by
  simp only [parseBlock]
  exact (Keeps.expect _).bind fun open_ => (h.blockItems _).bind fun stmts => Keeps.mkStmt _ _

theorem blockItems_succ (open_ : Span) : Keeps (parseBlockItems (n + 1) open_) := by
  simp only [parseBlockItems]
  refine Keeps.currentKind.bind fun k => ?_
  split
  · exact Keeps.advance.bind fun _ => Keeps.pure _
  · exact Keeps.currentSpan.bind fun _ => Keeps.throw _
  · exact (Keeps.blockItem h.stmt).bind fun r => (h.blockItems _).bind fun rest => Keeps.pure _

theorem stmt_succ : Keeps (parseStmt (n + 1)) := by
  simp only [parseStmt]
  exact Keeps.nested h.stmtInner

theorem stmtInner_succ : Keeps (parseStmtInner (n + 1)) := by
  simp only [parseStmtInner]
  refine Keeps.currentSpan.bind fun start => Keeps.currentKind.bind fun k => ?_
  refine Keeps.ite (Keeps.advance.bind fun _ => Keeps.mkStmt _ _) (Keeps.ite h.block
    (Keeps.ite (h.localDecl.bind fun _ => Keeps.mkStmt _ _) (Keeps.ite (h.keywordStmt _ _) ?_)))
  refine (Keeps.peekKind 1).bind fun _ => Keeps.ite ?_ ?_
  · -- a label, then the statement it names
    refine Keeps.expectIdent.bind fun name => Keeps.advance.bind fun _ => ?_
    refine Keeps.currentKind.bind fun c => Keeps.ite (h.keywordStmt _ _) ?_
    exact Keeps.currentSpan.bind fun _ => Keeps.throw _
  · exact h.expr.bind fun e => (Keeps.expect _).bind fun _ => Keeps.mkStmt _ _

theorem keywordStmt_succ (label : Option Label) (start : Span) :
    Keeps (parseKeywordStmt (n + 1) label start) := by
  simp only [parseKeywordStmt]
  refine Keeps.currentKind.bind fun k => ?_
  split
  · refine Keeps.advance.bind fun _ => h.condition.bind fun c => h.stmt.bind fun t => ?_
    exact h.elseBranch.bind fun e => Keeps.mkStmt _ _
  · refine Keeps.advance.bind fun _ => h.condition.bind fun c => h.stmt.bind fun body => ?_
    exact h.elseBranch.bind fun e => Keeps.mkStmt _ _
  · refine Keeps.advance.bind fun _ => (Keeps.expect _).bind fun _ => ?_
    refine (h.optionalExpr _).bind fun init => (Keeps.expect _).bind fun _ => ?_
    refine (h.optionalExpr _).bind fun cond => (Keeps.expect _).bind fun _ => ?_
    refine (h.optionalExpr _).bind fun step => (Keeps.expect _).bind fun _ => ?_
    exact h.stmt.bind fun body => h.elseBranch.bind fun e => Keeps.mkStmt _ _
  · exact Keeps.advance.bind fun _ => Keeps.parseJumpLabel.bind fun _ => Keeps.mkStmt _ _
  · exact Keeps.advance.bind fun _ => Keeps.parseJumpLabel.bind fun _ => Keeps.mkStmt _ _
  · exact Keeps.advance.bind fun _ => Keeps.parseJumpLabel.bind fun _ => Keeps.mkStmt _ _
  · refine Keeps.advance.bind fun _ => (h.optionalExpr _).bind fun v => ?_
    exact (Keeps.expect _).bind fun _ => Keeps.mkStmt _ _
  · exact Keeps.currentSpan.bind fun _ => Keeps.throw _

theorem condition_succ : Keeps (parseCondition (n + 1)) := by
  simp only [parseCondition]
  exact (Keeps.expect _).bind fun _ => h.expr.bind fun c => (Keeps.expect _).bind fun _ =>
    Keeps.pure c

theorem elseBranch_succ : Keeps (parseElse (n + 1)) := by
  simp only [parseElse]
  exact (Keeps.eat _).bind fun _ => Keeps.ite (h.stmt.bind fun _ => Keeps.pure _) (Keeps.pure _)

theorem optionalExpr_succ (terminator : TokenKind) :
    Keeps (parseOptionalExpr (n + 1) terminator) := by
  simp only [parseOptionalExpr]
  exact (Keeps.check _).bind fun _ => Keeps.ite (Keeps.pure _) (h.expr.bind fun e => Keeps.pure _)

theorem init_succ : Keeps (parseInit (n + 1)) := by
  simp only [parseInit]
  exact Keeps.nested h.initInner

theorem initInner_succ : Keeps (parseInitInner (n + 1)) := by
  simp only [parseInitInner]
  refine Keeps.currentSpan.bind fun start => Keeps.currentKind.bind fun k => ?_
  split
  · refine Keeps.advance.bind fun open_ => h.elements.bind fun elems => ?_
    exact (Keeps.expectCloseBrace _).bind fun _ => Keeps.mkExpr _ _
  · refine (Keeps.peekKind 1).bind fun _ => Keeps.ite ?_ h.assign
    exact Keeps.advance.bind fun _ => h.fieldInits.bind fun _ => Keeps.mkExpr _ _
  · refine (Keeps.peekKind 1).bind fun _ => Keeps.ite ?_ h.assign
    exact Keeps.advance.bind fun _ => h.fieldInits.bind fun _ => Keeps.mkExpr _ _
  · exact h.assign

theorem elements_succ : Keeps (parseElements (n + 1)) := by
  simp only [parseElements]
  refine (Keeps.check _).bind fun _ => Keeps.atEnd.bind fun _ => Keeps.ite (Keeps.pure _) ?_
  refine h.init.bind fun e => (Keeps.eat _).bind fun _ => Keeps.ite ?_ (Keeps.pure _)
  exact h.elements.bind fun _ => Keeps.pure _

theorem fieldInits_succ : Keeps (parseFieldInits (n + 1)) := by
  simp only [parseFieldInits]
  exact (Keeps.expect _).bind fun open_ => (h.fieldList _).bind fun fields =>
    (Keeps.expectCloseBrace _).bind fun _ => Keeps.pure _

theorem fieldList_succ (seen : List (String × Span)) : Keeps (parseFieldList (n + 1) seen) := by
  simp only [parseFieldList]
  refine (Keeps.check _).bind fun _ => Keeps.atEnd.bind fun _ => Keeps.ite (Keeps.pure _) ?_
  refine Keeps.expectIdent.bind fun name => (Keeps.expect _).bind fun _ => ?_
  refine h.init.bind fun value => (Keeps.spanFrom _).bind fun span => ?_
  -- a field named again is reported and dropped; the list goes on either way
  split
  · refine (Keeps.report _).bind fun _ => (Keeps.pure _).bind fun r => ?_
    exact (Keeps.eat _).bind fun _ => Keeps.ite ((h.fieldList _).bind fun _ => Keeps.pure _)
      (Keeps.pure _)
  · refine (Keeps.pure _).bind fun r => ?_
    exact (Keeps.eat _).bind fun _ => Keeps.ite ((h.fieldList _).bind fun _ => Keeps.pure _)
      (Keeps.pure _)

theorem decl_succ : Keeps (parseDecl (n + 1)) := by
  simp only [parseDecl]
  exact Keeps.parseDeclHead.bind fun head => h.declBody head

theorem localDecl_succ : Keeps (parseLocalDecl (n + 1)) := by
  simp only [parseLocalDecl]
  refine Keeps.parseDeclHead.bind fun head => (Keeps.check _).bind fun _ => ?_
  exact Keeps.ite (Keeps.currentSpan.bind fun _ => (Keeps.throw _).bind fun _ => h.declBody head)
    (h.declBody head)

theorem declBody_succ (head : DeclHead) : Keeps (parseDeclBody (n + 1) head) := by
  simp only [parseDeclBody]
  refine Keeps.currentKind.bind fun k => ?_
  split
  · exact h.function head
  · refine (Keeps.rejectModifiers _ _ _).bind fun _ => (Keeps.expect _).bind fun _ => ?_
    refine Keeps.expectIdent.bind fun name => (Keeps.expect _).bind fun _ => h.type.bind fun ty => ?_
    refine (Keeps.eat _).bind fun _ => Keeps.ite
      ((h.init.map some).bind fun value => ?_) ((Keeps.pure _).bind fun value => ?_)
    all_goals exact (Keeps.expect _).bind fun _ => Keeps.finishDecl _ _ _ _ _
  · refine (Keeps.rejectModifiers _ _ _).bind fun _ => (Keeps.expect _).bind fun _ => ?_
    refine Keeps.expectIdent.bind fun name => (Keeps.expect _).bind fun _ => h.type.bind fun ty => ?_
    refine (Keeps.expect _).bind fun _ => h.assign.bind fun value => ?_
    exact (Keeps.expect _).bind fun _ => Keeps.finishDecl _ _ _ _ _
  · refine (Keeps.rejectModifiers _ _ _).bind fun _ => (Keeps.expect _).bind fun _ => ?_
    refine Keeps.expectIdent.bind fun name => (Keeps.expect _).bind fun _ => h.type.bind fun ty => ?_
    exact (Keeps.expect _).bind fun _ => Keeps.finishDecl _ _ _ _ _
  · refine (Keeps.rejectModifiers _ _ _).bind fun _ => Keeps.advance.bind fun keyword => ?_
    refine Keeps.expectIdent.bind fun name => h.recordBody.bind fun members => ?_
    refine Keeps.freshId.bind fun _ => (Keeps.spanFrom _).bind fun _ => ?_
    exact (Keeps.expect _).bind fun _ => Keeps.finishDecl _ _ _ _ _
  · refine (Keeps.rejectModifiers _ _ _).bind fun _ => Keeps.advance.bind fun keyword => ?_
    refine Keeps.expectIdent.bind fun name => h.recordBody.bind fun members => ?_
    refine Keeps.freshId.bind fun _ => (Keeps.spanFrom _).bind fun _ => ?_
    exact (Keeps.expect _).bind fun _ => Keeps.finishDecl _ _ _ _ _
  · exact Keeps.currentSpan.bind fun _ => Keeps.throw _

theorem function_succ (head : DeclHead) : Keeps (parseFun (n + 1) head) := by
  simp only [parseFun]
  refine (Keeps.expect _).bind fun _ => Keeps.expectIdent.bind fun name => ?_
  refine Keeps.currentSpan.bind fun _ => (Keeps.expect _).bind fun _ => (Keeps.check _).bind fun _ => ?_
  refine Keeps.ite ((Keeps.pure _).bind fun params => ?_) (h.params.bind fun params => ?_)
  -- with or without parameters, the signature and then a body or `;`
  all_goals
    refine (Keeps.expect _).bind fun _ => h.returnType.bind fun ret => ?_
    refine Keeps.freshId.bind fun _ => (Keeps.spanFrom _).bind fun _ => ?_
    refine (Keeps.eat _).bind fun _ => Keeps.ite
      ((Keeps.pure _).bind fun body => Keeps.finishDecl _ _ _ _ _)
      ((h.block.map some).bind fun body => Keeps.finishDecl _ _ _ _ _)

theorem params_succ : Keeps (parseParams (n + 1)) := by
  simp only [parseParams]
  refine (Keeps.check _).bind fun _ => Keeps.ite
    (Keeps.parseVariadicMarker.bind fun _ => Keeps.pure _) ?_
  refine Keeps.expectIdent.bind fun name => (Keeps.expect _).bind fun _ => h.type.bind fun t => ?_
  exact (Keeps.eat _).bind fun _ => Keeps.ite (h.params.bind fun _ => Keeps.pure _) (Keeps.pure _)

/-- One more level of fuel. -/
theorem succ : GrammarKeeps (n + 1) where
  expr := h.expr_succ
  commaTail := h.commaTail_succ
  assign := h.assign_succ
  ternary := h.ternary_succ
  binary := h.binary_succ
  binaryTail := h.binaryTail_succ
  unary := h.unary_succ
  sizeof := h.sizeof_succ
  operand := h.operand_succ
  operandTail := h.operandTail_succ
  callArgs := h.callArgs_succ
  argList := h.argList_succ
  primary := h.primary_succ
  stringTail := h.stringTail_succ
  type := h.type_succ
  typeInner := h.typeInner_succ
  funType := h.funType_succ
  typeParams := h.typeParams_succ
  returnType := h.returnType_succ
  recordBody := h.recordBody_succ
  members := h.members_succ
  block := h.block_succ
  blockItems := h.blockItems_succ
  stmt := h.stmt_succ
  stmtInner := h.stmtInner_succ
  keywordStmt := h.keywordStmt_succ
  condition := h.condition_succ
  elseBranch := h.elseBranch_succ
  optionalExpr := h.optionalExpr_succ
  init := h.init_succ
  initInner := h.initInner_succ
  elements := h.elements_succ
  fieldInits := h.fieldInits_succ
  fieldList := h.fieldList_succ
  decl := h.decl_succ
  localDecl := h.localDecl_succ
  declBody := h.declBody_succ
  function := h.function_succ
  params := h.params_succ

end GrammarKeeps

/-- Every grammar function keeps the state at every fuel: by induction on the fuel. -/
theorem grammarKeeps : ∀ n, GrammarKeeps n
  | 0 => grammarKeeps_zero
  | n + 1 => (grammarKeeps n).succ

/-- A round of the declaration loop keeps the state: a declaration read, or its error recorded
and the cursor moved on. -/
theorem Keeps.declAttempt : Keeps Parser.declAttempt := by
  unfold Parser.declAttempt
  refine Keeps.get.bind fun _ => Keeps.get.bind fun _ => ?_
  refine Keeps.tryCatch (((grammarKeeps _).decl).map _) fun e => Keeps.ite ?_ ?_
  · exact (Keeps.report e).bind fun _ => Keeps.pure _
  · refine (Keeps.recover e).bind fun _ => Keeps.get.bind fun _ => ?_
    exact Keeps.ite (Keeps.advance.bind fun _ => Keeps.pure _) (Keeps.pure _)

/-- The declaration loop keeps the state, round after round. -/
theorem Keeps.parseDecls : ∀ fuel acc, Keeps (Parser.parseDecls fuel acc)
  | 0, _ => Keeps.pure _
  | fuel + 1, acc => by
    simp only [Parser.parseDecls]
    refine Keeps.atEnd.bind fun _ => Keeps.ite (Keeps.pure _) (Keeps.declAttempt.bind fun a => ?_)
    cases a with
    | parsed d => exact Keeps.parseDecls fuel _
    | skipped => exact Keeps.parseDecls fuel _
    | stopped => exact Keeps.pure _

/-- The nesting depth is restored on every path. A construct that restores it is left, nested, at
the depth it started from, whether it succeeds, fails, or is refused at the limit; every grammar
function restores it at every fuel, so every construct the grammar nests does; and however many
rounds the declaration loop has run over the tokens of a text, the depth is back at zero, so
each declaration is read from depth zero and the limit counts only its own nesting. -/
theorem nesting_depth_restored :
    (∀ (α : Type) (x : Parser α) (s : ParseState),
      (∀ r s', x.run.run { s with depth := s.depth + 1 } = (r, s') → s'.depth = s.depth + 1) →
      ∀ r s', (nested x).run.run s = (r, s') → s'.depth = s.depth) ∧
    (∀ n, GrammarKeeps n) ∧
    (∀ (source : String) (allowReserved : Bool) (fuel : Nat),
      ((parseDecls fuel []).run.run
          { tokens := (lex source allowReserved).tokens.tokens,
            comments := (lex source allowReserved).tokens.comments }).2.depth = 0) := by
  refine ⟨fun _ _ _ hx => nested_depth hx, grammarKeeps, fun source allowReserved fuel => ?_⟩
  have heof := Lex.lex_endsWithEof source allowReserved
  exact (Keeps.parseDecls fuel [] _ ⟨heof, heof.size_pos⟩ _ _ rfl).depth

/-- An expression left open inside parentheses fails, and the depth is restored all the same. -/
theorem nesting_depth_restored_unclosed_paren :
    ((nested (parseExpr 8)).run.run
        { tokens := (lex "((1;").tokens.tokens, comments := [] }).2.depth = 0 := by
  have heof := Lex.lex_endsWithEof "((1;" false
  exact nesting_depth_restored.1 _ (parseExpr 8) { tokens := (lex "((1;").tokens.tokens, comments := [] }
    (fun r s' h => ((grammarKeeps 8).expr _ ⟨heof, heof.size_pos⟩ r s' h).depth) _ _ rfl

end SolarFront.Parser
