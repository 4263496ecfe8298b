import SolarFront.Proofs.Check.Passes

/-!
# Where jumps go, and bodies that always return

A `continue`, `break` or `breakif` leaves one of the statements around it in its function: the
`if` statements whose branches hold it and the loops whose bodies hold it, innermost first. A
loop's `else` branch runs after the loop, so the loop is not around the jumps in it.
`Stmt.jumps` reads these lists off the tree, and the label rules (`LabelStack.resolve`) pick a
jump's target from its list.

Checking follows the tree: the stack of enclosing statements that the checker keeps is, at
each jump, the list the tree gives, and it is the same again when the statement is done. Typing
and declarations never move the jumps (`CheckState.Grows`). So what a checked function body
leaves behind is the fold of `JumpRecord.add` over its jumps in order: the target of every jump
that has one, the statements that a `break` or `breakif` leaves, and one report for every jump
that has none. The body's list starts empty, and the enclosing statements of the caller come
back afterwards, so no label reaches across a function.

The missing-return check reads the broken statements this leaves behind. Against the control
flow in which every condition may go either way and every jump goes to its recorded target,
`alwaysReturns` is sound: a body it accepts cannot reach its end (`Stmt.mayComplete`).
-/

set_option autoImplicit false
set_option linter.all false
set_option mvcgen.warning false

namespace SolarFront

/-- The reports that only a jump makes: no enclosing statement has the label, the label names a
statement of the wrong kind, or there is no statement the jump can leave. -/
def Code.isJumpError : Code → Bool
  | .e2002 | .e2003 | .e2005 => true
  | _ => false

theorem Code.isStatementError_of_isJumpError {c : Code} (h : c.isJumpError = true) :
    c.isStatementError = true := by
  cases c <;> simp_all [isJumpError, isStatementError]

/-- The code of the report about a jump without a target. -/
def LabelError.code : LabelError → Code
  | .noTarget => .e2005
  | .unknown => .e2002
  | .wrongKind _ => .e2003

@[simp] theorem LabelError.code_isJumpError (e : LabelError) : e.code.isJumpError = true := by
  cases e <;> rfl

@[simp] theorem LabelError.diagnostic_code (e : LabelError) (jump : JumpKind)
    (label : Option Label) (span : Span) : (e.diagnostic jump label span).code = e.code := by
  cases e <;> simp [LabelError.diagnostic, LabelError.code]

/-- A `continue`, `break` or `breakif` statement: its node, the jump and its label, and the
statements around it that it may leave, innermost first. -/
structure Jump where
  id : Nat
  kind : JumpKind
  label : Option Label
  span : Span
  around : LabelStack JumpTarget

namespace Jump

/-- The statement the jump leaves by the label rules, or why there is none. -/
def target (j : Jump) : Except LabelError JumpTarget :=
  j.around.resolve j.kind (j.label.map (·.name))

/-- The report about the jump, when it has no target. -/
def error? (j : Jump) : Option Diagnostic :=
  match j.target with
  | .ok _ => none
  | .error e => some (e.diagnostic j.kind j.label j.span)

theorem error?_code {j : Jump} {d : Diagnostic} (h : j.error? = some d) :
    d.code.isJumpError = true := by
  unfold error? at h
  split at h
  · cases h
  · next e _ =>
    cases h
    cases e <;> rfl

end Jump

/-- The entry a statement opens for the jumps inside it. -/
abbrev Stmt.entry (id : Nat) (span : Span) (kind : TargetKind) (label : Option Label) :
    LabelEntry JumpTarget :=
  ⟨label, kind, ⟨id, span⟩⟩

mutual

/-- The jumps inside a statement in the order they are written, each with the statements around
it: those of `around`, and within the statement the `if` statements whose branches hold the
jump and the loops whose bodies hold it. -/
def Stmt.jumps (around : LabelStack JumpTarget) : Stmt → List Jump
  | .mk id span kind =>
    match kind with
    | .block stmts => Stmt.jumpsOf around stmts
    | .jump jump label => [⟨id, jump, label, span, around⟩]
    | .branch label _ thenS elseS =>
      thenS.jumps (Stmt.entry id span .cond label :: around) ++
        match elseS with
        | some e => e.jumps (Stmt.entry id span .cond label :: around)
        | none => []
    | .loop label _ _ _ body elseS =>
      -- the `else` branch runs after the loop: the loop is not around its jumps
      body.jumps (Stmt.entry id span .loop label :: around) ++
        match elseS with
        | some e => e.jumps around
        | none => []
    | _ => []

/-- The jumps inside statements in order. -/
def Stmt.jumpsOf (around : LabelStack JumpTarget) : List Stmt → List Jump
  | [] => []
  | st :: sts => st.jumps around ++ Stmt.jumpsOf around sts

end

/-- What checking has learned about jumps: the statement each jump with a target leaves, the
statements that a `break` or `breakif` leaves, and the reports that only statements make, in
order. -/
structure JumpRecord where
  targets : Std.TreeMap Nat JumpTarget
  broken : Std.TreeSet Nat
  reports : List Diagnostic

namespace JumpRecord

/-- The record after one more jump is checked. -/
def add (r : JumpRecord) (j : Jump) : JumpRecord :=
  match j.target with
  | .ok t =>
    { r with
      targets := r.targets.insert j.id t
      broken := if j.kind = .continue then r.broken else r.broken.insert t.stmt }
  | .error e => { r with reports := r.reports ++ [e.diagnostic j.kind j.label j.span] }

/-- Jumps only add reports about jumps without a target. -/
theorem foldl_add_reports (js : List Jump) (r : JumpRecord) :
    (js.foldl add r).reports = r.reports ++ js.filterMap Jump.error? := by
  induction js generalizing r with
  | nil => simp
  | cons j js ih =>
    rw [List.foldl_cons, ih, List.filterMap_cons]
    unfold add Jump.error?
    split <;> simp

/-- A key that no jump has keeps its target. -/
theorem foldl_add_targets_of_not_mem (js : List Jump) (r : JumpRecord) {i : Nat}
    (hi : i ∉ js.map (·.id)) : (js.foldl add r).targets[i]? = r.targets[i]? := by
  induction js generalizing r with
  | nil => rfl
  | cons j js ih =>
    simp only [List.map_cons, List.mem_cons, not_or] at hi
    rw [List.foldl_cons, ih _ hi.2]
    unfold add
    split
    · simp [Std.TreeMap.getElem?_insert, Ne.symm hi.1]
    · rfl

/-- A jump whose node no other jump has, and which the record does not hold yet, ends up with
the target the label rules give it, or none. -/
theorem foldl_add_targets_of_mem {js : List Jump} (hids : (js.map (·.id)).Nodup) {j : Jump}
    (hj : j ∈ js) (r : JumpRecord) (hr : r.targets.contains j.id = false) :
    (js.foldl add r).targets[j.id]? = j.target.toOption := by
  induction js generalizing r with
  | nil => cases hj
  | cons j' js ih =>
    rw [List.map_cons, List.nodup_cons] at hids
    rw [List.foldl_cons]
    rcases List.mem_cons.mp hj with rfl | hj
    · rw [foldl_add_targets_of_not_mem js _ hids.1]
      unfold add
      split
      · next t ht => simp [ht, Except.toOption]
      · next e he =>
        simp [he, Except.toOption, Std.TreeMap.getElem?_eq_none_of_contains_eq_false hr]
    · -- the earlier jump has another node, so it leaves this one's entry alone
      have hne : j'.id ≠ j.id := fun h => hids.1 (h ▸ List.mem_map_of_mem hj)
      refine ih hids.2 hj _ ?_
      unfold add
      split
      · simp [Std.TreeMap.contains_insert, hne, hr]
      · exact hr

/-- A statement once broken stays broken. -/
theorem foldl_add_broken_mono (js : List Jump) {r : JumpRecord} {x : Nat}
    (h : r.broken.contains x = true) : (js.foldl add r).broken.contains x = true := by
  induction js generalizing r with
  | nil => exact h
  | cons j js ih =>
    refine ih ?_
    unfold add
    split
    · split
      · exact h
      · simp [Std.TreeSet.contains_insert, h]
    · exact h

/-- The statement a `break` or `breakif` leaves is broken. -/
theorem foldl_add_broken_of_mem {js : List Jump} {j : Jump} (hj : j ∈ js)
    (hk : j.kind ≠ .continue) {t : JumpTarget} (ht : j.target = .ok t) (r : JumpRecord) :
    (js.foldl add r).broken.contains t.stmt = true := by
  induction js generalizing r with
  | nil => cases hj
  | cons j' js ih =>
    rw [List.foldl_cons]
    rcases List.mem_cons.mp hj with rfl | hj
    · apply foldl_add_broken_mono
      simp [add, ht, hk, Std.TreeSet.contains_insert]
    · exact ih hj _

end JumpRecord

/-! ## Bodies that always return -/

mutual

/-- Whether control may reach the end of a statement, when every condition may go either way,
a `return` leaves the function, and `broke` says which statements some `break` or `breakif`
leaves: a jump goes elsewhere, and a statement it leaves completes. -/
def Stmt.mayComplete (broke : Nat → Bool) : Stmt → Bool
  | .mk id _ kind =>
    match kind with
    | .empty | .decl _ | .expr _ => true
    | .ret _ | .jump _ _ => false
    | .block stmts => Stmt.allMayComplete broke stmts
    | .branch _ _ thenS elseS =>
      thenS.mayComplete broke ||
        (match elseS with
          | some e => e.mayComplete broke
          | none => true) ||
        broke id
    | .loop _ _ cond _ _ elseS =>
      broke id ||
        cond.isSome &&
          match elseS with
          | some e => e.mayComplete broke
          | none => true

/-- Whether control may reach the end of statements run in order. -/
def Stmt.allMayComplete (broke : Nat → Bool) : List Stmt → Bool
  | [] => true
  | st :: sts => st.mayComplete broke && Stmt.allMayComplete broke sts

end

section AlwaysReturns

variable {broken : Std.TreeSet Nat} {broke : Nat → Bool}

mutual

/-- `alwaysReturns` is sound for every set of broken statements that holds the statements some
jump leaves: a statement it accepts cannot complete. By recursion on the statement, one case
per form it accepts. -/
theorem Stmt.mayComplete_of_alwaysReturns
    (hbroke : ∀ id, broke id = true → broken.contains id = true) :
    ∀ st : Stmt, Check.alwaysReturns broken st = true → st.mayComplete broke = false
  | .mk id span kind, h => by
    -- a statement that no jump leaves is not completed by one
    have hleft (hid : broken.contains id = false) : broke id = false := by
      cases hb : broke id
      · rfl
      · simp [hbroke id hb] at hid
    cases kind with
    | ret value => rfl
    | block stmts =>
      exact Stmt.allMayComplete_of_anyAlwaysReturns hbroke stmts h
    | branch label cond thenS elseS =>
      cases elseS with
      | none => simp [Check.alwaysReturns] at h
      | some e =>
        simp only [Check.alwaysReturns, Bool.and_eq_true, Bool.not_eq_true'] at h
        obtain ⟨⟨hid, hthen⟩, helse⟩ := h
        simp [Stmt.mayComplete, hleft hid,
          Stmt.mayComplete_of_alwaysReturns hbroke thenS hthen,
          Stmt.mayComplete_of_alwaysReturns hbroke e helse]
    | loop label init cond step body elseS =>
      cases cond with
      | none =>
        simp only [Check.alwaysReturns, Bool.not_eq_true'] at h
        unfold Stmt.mayComplete
        simp [hleft h]
      | some c =>
        cases elseS with
        | none => simp [Check.alwaysReturns] at h
        | some e =>
          simp only [Check.alwaysReturns, Bool.and_eq_true, Bool.not_eq_true'] at h
          unfold Stmt.mayComplete
          simp [hleft h.1, Stmt.mayComplete_of_alwaysReturns hbroke e h.2]
    | _ => simp [Check.alwaysReturns] at h

/-- Statements of which one always returns cannot complete in order. -/
theorem Stmt.allMayComplete_of_anyAlwaysReturns
    (hbroke : ∀ id, broke id = true → broken.contains id = true) :
    ∀ sts : List Stmt, Check.anyAlwaysReturns broken sts = true →
      Stmt.allMayComplete broke sts = false
  | [], h => by simp [Check.anyAlwaysReturns] at h
  | st :: sts, h => by
    simp only [Check.anyAlwaysReturns, Bool.or_eq_true] at h
    rcases h with hst | hsts
    · simp [Stmt.allMayComplete, Stmt.mayComplete_of_alwaysReturns hbroke st hst]
    · simp [Stmt.allMayComplete, Stmt.allMayComplete_of_anyAlwaysReturns hbroke sts hsts]

end

end AlwaysReturns

/-! ## What checking records about jumps -/

namespace CheckState

/-- What the state records about jumps. -/
def jumpRecord (s : CheckState) : JumpRecord :=
  ⟨s.jumpTargets, s.broken, s.diagnostics.toList.filter (·.code.isStatementError)⟩

/-- Typing and declarations leave the record of jumps alone. -/
theorem Grows.jumpRecord_eq {s s' : CheckState} (h : s.Grows s') :
    s'.jumpRecord = s.jumpRecord := by
  simp [jumpRecord, h.jumpTargets, h.broken, h.statementErrors]

end CheckState

/-- The return type a function type gives its body, the error type for a type that is not a
function's. -/
def TypePool.returnOf (p : TypePool) (funcTy : TypeId) : TypeId :=
  match p.get funcTy with
  | .func ret _ _ => ret
  | _ => .error

/-- The record after a function body: its jumps, resolved from no enclosing statement, then the
report about a body that returns a value and may reach its end. -/
def JumpRecord.body (r : JumpRecord) (d : Decl) (ret : TypeId) (retName : String)
    (body : Stmt) : JumpRecord :=
  let r := (body.jumps []).foldl add r
  if !ret.isVoid && !ret.isError && !Check.alwaysReturns r.broken body then
    { r with reports := r.reports ++ [Check.missingReturn d retName body] }
  else r

namespace JumpRecord

variable (r : JumpRecord) (d : Decl) (ret : TypeId) (retName : String) (body : Stmt)

@[simp] theorem body_targets : (r.body d ret retName body).targets =
    ((body.jumps []).foldl add r).targets := by
  simp only [JumpRecord.body]
  split <;> rfl

@[simp] theorem body_broken : (r.body d ret retName body).broken =
    ((body.jumps []).foldl add r).broken := by
  simp only [JumpRecord.body]
  split <;> rfl

theorem body_reports : (r.body d ret retName body).reports =
    r.reports ++ (body.jumps []).filterMap Jump.error? ++
      if !ret.isVoid && !ret.isError &&
          !Check.alwaysReturns ((body.jumps []).foldl add r).broken body then
        [Check.missingReturn d retName body]
      else [] := by
  simp only [JumpRecord.body]
  split <;> simp [foldl_add_reports, *]

end JumpRecord

/-- The reports of a kind that only statements make are read off the record of jumps. -/
theorem CheckState.jumpRecord_reports_filter (s : CheckState) {p : Diagnostic → Bool}
    (hp : ∀ d, p d = true → d.code.isStatementError = true) :
    s.jumpRecord.reports.filter p = s.diagnostics.toList.filter p := by
  rw [jumpRecord, List.filter_filter]
  refine List.filter_congr fun d _ => ?_
  cases h : p d
  · rfl
  · simp [hp d h]

theorem Stmt.jumps_of_kind_block {st : Stmt} {stmts : List Stmt} (h : st.kind = .block stmts)
    (around : LabelStack JumpTarget) : st.jumps around = Stmt.jumpsOf around stmts := by
  obtain ⟨id, span, kind⟩ := st
  cases h
  rfl

namespace Check

open CheckM CheckState Std.Do

/-- Checking a jump adds it to the record, resolved against the enclosing statements. -/
theorem checkJump_record (id : Nat) (jump : JumpKind) (label : Option Label) (span : Span)
    (s₀ : CheckState) :
    ⦃fun s => ⌜s = s₀ ∧ s.Sound⌝⦄ checkJump id jump label span
    ⦃⇓ _ s => ⌜s.Sound ∧ s.labels = s₀.labels ∧
      s.jumpRecord = s₀.jumpRecord.add ⟨id, jump, label, span, s₀.labels⟩⌝⦄ := by
  unfold checkJump CheckM.report
  mvcgen
  all_goals grind [JumpRecord.add, Jump.target, jumpRecord, sound_iff, Sound.push,
    LabelError.diagnostic_code, LabelError.code_isJumpError, Code.isStatementError_of_isJumpError]

mutual

/-- Checking a statement from a sound state adds its jumps to the record in order, each resolved
against the enclosing statements the tree gives it, and leaves the enclosing statements as
they were: one case per form of statement, the nested statements by the same theorem. -/
theorem checkStmt_record (st : Stmt) (s₀ : CheckState) :
    ⦃fun s => ⌜s = s₀ ∧ s.Sound⌝⦄ checkStmt st
    ⦃⇓ _ s => ⌜s.Sound ∧ s.labels = s₀.labels ∧
      s.jumpRecord = (st.jumps s₀.labels).foldl JumpRecord.add s₀.jumpRecord⌝⦄ := by
  obtain ⟨id, span, kind⟩ := st
  cases kind with
  | block stmts =>
    have hstmts := checkStmts_record stmts
    mvcgen [checkStmt, withScope, hstmts]
    all_goals grind [Stmt.jumps, Grows.refl, Grows.jumpRecord_eq, grows_iff]
  | jump jump label =>
    mvcgen [checkStmt, checkJump_record, -checkJump_spec]
    all_goals grind [Stmt.jumps]
  | branch label cond thenS elseS =>
    have hthen := checkStmt_record thenS
    cases elseS with
    | none =>
      mvcgen [checkStmt, pushTarget, popTarget, hthen]
      all_goals grind [Stmt.jumps, Grows.refl, Grows.jumpRecord_eq, grows_iff, sound_iff,
        jumpRecord]
    | some e =>
      have helse := checkStmt_record e
      mvcgen [checkStmt, pushTarget, popTarget, hthen, helse]
      all_goals grind [Stmt.jumps, Grows.refl, Grows.jumpRecord_eq, grows_iff, sound_iff,
        jumpRecord]
  | loop label init cond step body elseS =>
    have hbody := checkStmt_record body
    cases elseS with
    | none =>
      mvcgen [checkStmt, pushTarget, popTarget, hbody]
      all_goals grind [Stmt.jumps, Grows.refl, Grows.jumpRecord_eq, grows_iff, sound_iff,
        jumpRecord]
    | some e =>
      have helse := checkStmt_record e
      mvcgen [checkStmt, pushTarget, popTarget, hbody, helse]
      all_goals grind [Stmt.jumps, Grows.refl, Grows.jumpRecord_eq, grows_iff, sound_iff,
        jumpRecord]
  | _ =>
    mvcgen [checkStmt]
    all_goals grind [Stmt.jumps, Grows.refl, Grows.jumpRecord_eq, grows_iff]

theorem checkStmts_record (sts : List Stmt) (s₀ : CheckState) :
    ⦃fun s => ⌜s = s₀ ∧ s.Sound⌝⦄ checkStmts sts
    ⦃⇓ _ s => ⌜s.Sound ∧ s.labels = s₀.labels ∧
      s.jumpRecord = (Stmt.jumpsOf s₀.labels sts).foldl JumpRecord.add s₀.jumpRecord⌝⦄ := by
  cases sts with
  | nil =>
    mvcgen [checkStmts]
    all_goals grind [Stmt.jumpsOf]
  | cons st sts =>
    have hst := checkStmt_record st
    have hsts := checkStmts_record sts
    mvcgen [checkStmts, hst, hsts]
    all_goals grind [Stmt.jumpsOf]

end

/-- Checking a function body records its jumps, resolved from no enclosing statement, and
gives the caller's enclosing statements back. -/
theorem checkBody_record (d : Decl) (funcTy : TypeId) {params : List Param} {body : Stmt}
    {isStatic isInline : Bool} (hd : d.kind = .func params (some body) isStatic isInline)
    (s₀ : CheckState) :
    ⦃fun s => ⌜s = s₀ ∧ s.Sound⌝⦄ checkBody d funcTy
    ⦃⇓ _ s => ⌜s.Sound ∧ s.labels = s₀.labels ∧
      s.jumpRecord = s₀.jumpRecord.body d (s₀.pool.returnOf funcTy)
        (s.pool.format (s₀.pool.returnOf funcTy)) body⌝⦄ := by
  have hstmt := checkStmt_record
  have hstmts := checkStmts_record
  simp only [checkBody, hd, CheckM.report]
  mvcgen [hstmt, hstmts]
  case vc2 =>
    -- the parameters get the parameter types of the function's type, types of the pool
    rename_i s₁ h₁ _ _ s₂ h₂
    refine ⟨Grows.refl _, h₂.1, ?_⟩
    split
    · next heq => exact fun q hq => h₂.2.has ((h₁.2.wf.has_of_get_func heq).2 q hq)
    · simp
  all_goals grind [Grows.refl, Grows.jumpRecord_eq, grows_iff, sound_iff, jumpRecord,
    JumpRecord.body, Stmt.jumps_of_kind_block, TypePool.returnOf, Sound.push]

/-- The state after checking a function body from a sound state. -/
theorem checkBody_run (d : Decl) (funcTy : TypeId) {params : List Param} {body : Stmt}
    {isStatic isInline : Bool} (hd : d.kind = .func params (some body) isStatic isInline)
    (s : CheckState) (hs : s.Sound) :
    let s' := ((checkBody d funcTy).run s).2
    s'.Sound ∧ s'.labels = s.labels ∧
      s'.jumpRecord = s.jumpRecord.body d (s.pool.returnOf funcTy)
        (s'.pool.format (s.pool.returnOf funcTy)) body := by
  refine StateM.of_wp_run_eq rfl (fun r : Unit × CheckState =>
    r.2.Sound ∧ r.2.labels = s.labels ∧
      r.2.jumpRecord = s.jumpRecord.body d (s.pool.returnOf funcTy)
        (r.2.pool.format (s.pool.returnOf funcTy)) body) ?_
  exact fun _ => checkBody_record d funcTy hd s s ⟨rfl, hs⟩

/-- Where a checked function body's jump goes: with the jumps on nodes of their own that the
state has no target for yet, the target the label rules give it, or none. -/
theorem checkBody_jumpTarget (d : Decl) (funcTy : TypeId) {params : List Param} {body : Stmt}
    {isStatic isInline : Bool} (hd : d.kind = .func params (some body) isStatic isInline)
    (s : CheckState) (hs : s.Sound) (hids : ((body.jumps []).map (·.id)).Nodup)
    (hfresh : ∀ j ∈ body.jumps [], s.jumpTargets.contains j.id = false)
    {j : Jump} (hj : j ∈ body.jumps []) :
    ((checkBody d funcTy).run s).2.jumpTargets[j.id]? = j.target.toOption := by
  have htargets : ((checkBody d funcTy).run s).2.jumpTargets =
      ((checkBody d funcTy).run s).2.jumpRecord.targets := rfl
  rw [htargets, (checkBody_run d funcTy hd s hs).2.2, JumpRecord.body_targets]
  exact JumpRecord.foldl_add_targets_of_mem hids hj _ (hfresh j hj)

/-- Checking a function body resolves its jumps against the statements around them in the body
and nothing else. From a sound state, and with the jumps on nodes of their own that the state
has no target for yet: each jump gets the target that the label rules give it from the `if`
statements and loops around it, innermost first, or none; the reports about jumps that the
check adds are exactly those of the jumps without a target, in order; and the enclosing
statements are those from before. -/
theorem checkBody_resolves_jumps (d : Decl) (funcTy : TypeId) {params : List Param}
    {body : Stmt} {isStatic isInline : Bool}
    (hd : d.kind = .func params (some body) isStatic isInline) (s : CheckState) (hs : s.Sound)
    (hids : ((body.jumps []).map (·.id)).Nodup)
    (hfresh : ∀ j ∈ body.jumps [], s.jumpTargets.contains j.id = false) :
    let s' := ((checkBody d funcTy).run s).2
    s'.labels = s.labels ∧
      (∀ j ∈ body.jumps [], s'.jumpTargets[j.id]? = j.target.toOption) ∧
      s'.diagnostics.toList.filter (·.code.isJumpError) =
        s.diagnostics.toList.filter (·.code.isJumpError) ++
          (body.jumps []).filterMap Jump.error? := by
  intro s'
  obtain ⟨-, hlabels, hrec⟩ := checkBody_run d funcTy hd s hs
  have hjump : ∀ d : Diagnostic, d.code.isJumpError = true → d.code.isStatementError = true :=
    fun d h => Code.isStatementError_of_isJumpError h
  refine ⟨hlabels, fun j hj => checkBody_jumpTarget d funcTy hd s hs hids hfresh hj, ?_⟩
  -- every jump's report is about a jump, and the missing-return report is not
  have herrors : ((body.jumps []).filterMap Jump.error?).filter (·.code.isJumpError) =
      (body.jumps []).filterMap Jump.error? :=
    List.filter_eq_self.mpr fun d hd => by
      obtain ⟨j, -, hj⟩ := List.mem_filterMap.mp hd
      exact Jump.error?_code hj
  rw [← s'.jumpRecord_reports_filter hjump, ← s.jumpRecord_reports_filter hjump, hrec,
    JumpRecord.body_reports, List.filter_append, List.filter_append, herrors]
  split
  · simp [Code.isJumpError]
  · simp

/-- In `{ for (;;) break; continue; }` the `break` leaves the loop and the `continue` after the
loop has none to leave. -/
theorem checkBody_resolves_jumps_loop :
    let body : Stmt := .mk 1 Span.dummy (.block
      [.mk 2 Span.dummy (.loop none none none none (.mk 3 Span.dummy (.jump .break none)) none),
        .mk 4 Span.dummy (.jump .continue none)])
    let d : Decl := .mk 0 "f" Span.dummy Span.dummy (.mk 5 Span.dummy false .void) false none
      (.func [] (some body) false false)
    let s : CheckState := { budget := 0 }
    ((body.jumps []).map (·.id)).Nodup ∧
      (∀ j ∈ body.jumps [], s.jumpTargets.contains j.id = false) ∧
      let s' := ((checkBody d .error).run s).2
      s'.labels = s.labels ∧
        (∀ j ∈ body.jumps [], s'.jumpTargets[j.id]? = j.target.toOption) ∧
        s'.diagnostics.toList.filter (·.code.isJumpError) =
          s.diagnostics.toList.filter (·.code.isJumpError) ++
            (body.jumps []).filterMap Jump.error? := by
  intro body d s
  exact ⟨by decide, by decide,
    checkBody_resolves_jumps d .error rfl s (sound_initial 0) (by decide) (by decide)⟩

/-- The missing-return check is sound. Let each jump of a function body go where the check
records it goes, and let `broke` hold of the statements that some `break` or `breakif` of the
body goes to. From a sound state, with the jumps on nodes of their own that the state has no
target for yet: a body that `alwaysReturns` accepts, against the broken statements the check
leaves, cannot reach its end; so neither can the body of a function returning a value for
which the check reports no missing return. -/
theorem checkBody_cannot_fall_through (d : Decl) (funcTy : TypeId) {params : List Param}
    {body : Stmt} {isStatic isInline : Bool}
    (hd : d.kind = .func params (some body) isStatic isInline) (s : CheckState) (hs : s.Sound)
    (hids : ((body.jumps []).map (·.id)).Nodup)
    (hfresh : ∀ j ∈ body.jumps [], s.jumpTargets.contains j.id = false) :
    let s' := ((checkBody d funcTy).run s).2
    let broke := fun id => (body.jumps []).any fun j =>
      j.kind != .continue && s'.jumpTargets[j.id]?.any (·.stmt == id)
    (alwaysReturns s'.broken body = true → body.mayComplete broke = false) ∧
      ((s.pool.returnOf funcTy).isVoid = false → (s.pool.returnOf funcTy).isError = false →
        s'.diagnostics.toList.filter (·.code == .e3012) =
          s.diagnostics.toList.filter (·.code == .e3012) →
        body.mayComplete broke = false) := by
  intro s' broke
  obtain ⟨-, -, hrec⟩ := checkBody_run d funcTy hd s hs
  have hbroken : s'.broken = ((body.jumps []).foldl JumpRecord.add s.jumpRecord).broken := by
    rw [show s'.broken = s'.jumpRecord.broken from rfl, hrec, JumpRecord.body_broken]
  -- a statement that a jump of the body goes to, by a `break` or `breakif`, is broken
  have hbroke : ∀ id, broke id = true → s'.broken.contains id = true := by
    intro id h
    simp only [broke, List.any_eq_true, Bool.and_eq_true, bne_iff_ne, ne_eq,
      Option.any_eq_true, beq_iff_eq] at h
    obtain ⟨j, hj, hk, t, ht, rfl⟩ := h
    rw [checkBody_jumpTarget d funcTy hd s hs hids hfresh hj] at ht
    have hres : j.target = .ok t := by
      cases h : j.target <;> simp_all [Except.toOption]
    rw [hbroken]
    exact JumpRecord.foldl_add_broken_of_mem hj hk hres _
  refine ⟨Stmt.mayComplete_of_alwaysReturns hbroke body, fun hvoid herror hnone => ?_⟩
  -- no missing-return report was added, so `alwaysReturns` held
  have hmissing : ∀ d : Diagnostic, (d.code == .e3012) = true →
      d.code.isStatementError = true := by
    intro d h
    rw [beq_iff_eq.mp h]
    rfl
  have herrors : ((body.jumps []).filterMap Jump.error?).filter (·.code == .e3012) = [] :=
    List.filter_eq_nil_iff.mpr fun d hd => by
      obtain ⟨j, -, hj⟩ := List.mem_filterMap.mp hd
      have := Jump.error?_code hj
      intro h
      rw [beq_iff_eq.mp h] at this
      cases this
  apply Stmt.mayComplete_of_alwaysReturns hbroke body
  by_contra hret
  rw [← s'.jumpRecord_reports_filter hmissing, ← s.jumpRecord_reports_filter hmissing, hrec,
    JumpRecord.body_reports, List.filter_append, List.filter_append, herrors, ← hbroken,
    if_pos (by simp [hvoid, herror, hret])] at hnone
  simp at hnone

/-- In `{ for (;;) { break; } return; }` the loop is broken, so the body ends with its
`return`. -/
theorem checkBody_cannot_fall_through_loop :
    let body : Stmt := .mk 1 Span.dummy (.block
      [.mk 2 Span.dummy (.loop none none none none (.mk 3 Span.dummy (.jump .break none)) none),
        .mk 4 Span.dummy (.ret none)])
    let d : Decl := .mk 0 "f" Span.dummy Span.dummy (.mk 5 Span.dummy false .void) false none
      (.func [] (some body) false false)
    let s : CheckState := { budget := 0 }
    ((body.jumps []).map (·.id)).Nodup ∧
      (∀ j ∈ body.jumps [], s.jumpTargets.contains j.id = false) ∧
      let s' := ((checkBody d .error).run s).2
      let broke := fun id => (body.jumps []).any fun j =>
        j.kind != .continue && s'.jumpTargets[j.id]?.any (·.stmt == id)
      (alwaysReturns s'.broken body = true → body.mayComplete broke = false) ∧
        ((s.pool.returnOf .error).isVoid = false → (s.pool.returnOf .error).isError = false →
          s'.diagnostics.toList.filter (·.code == .e3012) =
            s.diagnostics.toList.filter (·.code == .e3012) →
          body.mayComplete broke = false) := by
  intro body d s
  exact ⟨by decide, by decide,
    checkBody_cannot_fall_through d .error rfl s (sound_initial 0) (by decide) (by decide)⟩

end Check

end SolarFront
