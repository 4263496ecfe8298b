import SolarFront.Proofs.Check.Initializers

/-!
# Records keep sound members

A record gets its members once, when its definition is closed, from the members its
declaration resolves to: a member whose name an earlier member already has is dropped, a
member of type `void` takes the error type, and a bit width stays only on an integer type and
between one bit and the width of that type. Such members are `TypePool.SoundMembers`, and a pool
all of whose records have them is `TypePool.WellMembered`. A pool that keeps another keeps the
types of its members, so the members stay sound as the pool grows.

Every pool operation keeps the pool well membered: interning adds no record, a new record has no
members yet, and a layout changes no member. This module proves it of each rule of the checker
(`_members`); the typing functions, the declarations and the passes follow in
`Check.MembersTyping` and `Check.MembersPasses`. The shapes the layout engine reads off sound
members satisfy the precondition of `structLayout`: a bit width between one bit and the bits of
the member's size (`TypePool.WellMembered.memberShapes_bits`).
-/

set_option autoImplicit false
set_option linter.all false
set_option mvcgen.warning false

namespace SolarFront

namespace TypePool

/-- A member as the checker leaves it: not of type `void`, and with a bit width only on an
integer type, from one bit to the width of that type. -/
@[mk_iff] structure SoundMember (p : TypePool) (m : Member) : Prop where
  ne_void : m.ty ≠ .void
  bits : ∀ b ∈ m.bits, ∃ w, p.get m.ty = .int w ∧ 1 ≤ b ∧ b ≤ w.bits

/-- Sound members with pairwise distinct names. -/
structure SoundMembers (p : TypePool) (ms : List Member) : Prop where
  nodup : (ms.map (·.name)).Nodup
  sound : ∀ m ∈ ms, p.SoundMember m

/-- Every record of the pool has sound members. -/
def WellMembered (p : TypePool) : Prop :=
  ∀ rid < p.records.size, p.SoundMembers (p.record rid).members

/-- `q` gives every integer type of `p` the same width. Sound members stay sound from `p` to
`q`; every pool operation keeps this. -/
def KeepsInts (p q : TypePool) : Prop := ∀ t w, p.get t = .int w → q.get t = .int w

variable {p q r : TypePool}

theorem KeepsInts.refl (p : TypePool) : p.KeepsInts p := fun _ _ h => h

theorem KeepsInts.trans (hpq : p.KeepsInts q) (hqr : q.KeepsInts r) : p.KeepsInts r :=
  fun t w h => hqr t w (hpq t w h)

theorem has_of_get_eq_int {t : TypeId} {w : Width} (h : p.get t = .int w) : p.Has t := by
  by_contra hno
  have hnone : p.types[t.idx]? = none := Array.getElem?_eq_none (Nat.le_of_not_lt hno)
  simp [get, hnone] at h

theorem Keeps.keepsInts (hk : p.Keeps q) : p.KeepsInts q :=
  fun t _ h => (hk.get_eq t (has_of_get_eq_int h)).trans h

theorem keepsInts_modifyRecord (p : TypePool) (rid : Nat) (f : RecordDef → RecordDef) :
    p.KeepsInts (p.modifyRecord rid f) :=
  fun _ _ h => h

theorem SoundMember.keeps {m : Member} (h : p.SoundMember m) (hk : p.KeepsInts q) :
    q.SoundMember m where
  ne_void := h.ne_void
  bits b hb := by
    obtain ⟨w, hw, hlo, hhi⟩ := h.bits b hb
    exact ⟨w, hk _ _ hw, hlo, hhi⟩

theorem SoundMembers.keeps {ms : List Member} (h : p.SoundMembers ms) (hk : p.KeepsInts q) :
    q.SoundMembers ms :=
  ⟨h.nodup, fun m hm => (h.sound m hm).keeps hk⟩

theorem SoundMembers.nil : p.SoundMembers [] := ⟨List.nodup_nil, by simp⟩

theorem SoundMembers.cons {m : Member} {ms : List Member} (hm : p.SoundMember m)
    (hms : p.SoundMembers ms) (hname : m.name ∉ ms.map (·.name)) : p.SoundMembers (m :: ms) where
  nodup := List.nodup_cons.2 ⟨hname, hms.nodup⟩
  sound m' hm' := by
    rcases List.mem_cons.1 hm' with rfl | hm'
    · exact hm
    · exact hms.sound m' hm'

theorem SoundMembers.tail {m : Member} {ms : List Member} (h : p.SoundMembers (m :: ms)) :
    p.SoundMembers ms :=
  ⟨(List.nodup_cons.1 h.nodup).2, fun m' hm' => h.sound m' (List.mem_cons_of_mem _ hm')⟩

theorem empty_wellMembered : TypePool.empty.WellMembered := fun rid hrid => by
  simp [TypePool.empty] at hrid

/-- A pool that keeps a well-membered one, with no record more, is well membered. -/
theorem WellMembered.of_keeps (h : p.WellMembered) (hk : p.Keeps q)
    (hsize : q.records.size = p.records.size) : q.WellMembered := fun rid hrid => by
  rw [hsize] at hrid
  rw [hk.members_eq hrid]
  exact (h rid hrid).keeps hk.keepsInts

theorem WellMembered.intern (h : p.WellMembered) (d : TypeData) : (p.intern d).1.WellMembered :=
  h.of_keeps (intern_extends p d).toKeeps (by rw [intern_records])

theorem WellMembered.decay (h : p.WellMembered) (t : TypeId) : (p.decay t).1.WellMembered := by
  unfold TypePool.decay
  split
  · exact h.intern _
  · exact h.intern _
  · exact h

theorem WellMembered.newRecord (h : p.WellMembered) (kind : RecordKind) (name : Option String)
    (volatile : Bool) (span : Span) : (p.newRecord kind name volatile span).1.WellMembered := by
  intro rid hrid
  have hk := (newRecord_extends p kind name volatile span).toKeeps
  by_cases hlt : rid < p.records.size
  · rw [newRecord_record_of_lt p kind name volatile span hlt]
    exact (h rid hlt).keeps hk.keepsInts
  · -- the new record is the last, and has no members yet
    have hrid' : rid = p.records.size := by
      simp [newRecord_eq] at hrid
      omega
    subst hrid'
    rw [newRecord_record]
    exact SoundMembers.nil

/-- Changing a record keeps the pool well membered when the record's new members are sound. -/
theorem WellMembered.modifyRecord (h : p.WellMembered) (rid : Nat) (f : RecordDef → RecordDef)
    (hf : rid < p.records.size → p.SoundMembers (f (p.record rid)).members) :
    (p.modifyRecord rid f).WellMembered := by
  intro r hr
  rw [records_size_modifyRecord] at hr
  by_cases hrr : rid = r
  · subst hrr
    rw [record_modifyRecord_self p hr]
    exact (hf hr).keeps (keepsInts_modifyRecord p _ _)
  · rw [record_modifyRecord_other p hrr]
    exact (h r hr).keeps (keepsInts_modifyRecord p _ _)

theorem WellMembered.setMembers (h : p.WellMembered) (rid : Nat) {ms : List Member}
    (hms : p.SoundMembers ms) : (p.modifyRecord rid ({ · with members := ms })).WellMembered :=
  h.modifyRecord rid _ fun _ => hms

theorem WellMembered.setLayout (h : p.WellMembered) (rid : Nat) (st : LayoutState) :
    (p.modifyRecord rid ({ · with layout := st })).WellMembered :=
  h.modifyRecord rid _ (h rid)

/-- The shape of a sound member has a bit width between one bit and the bits of its size. -/
theorem SoundMember.shape_bits (wf : p.WellFormed) {m : Member} (h : p.SoundMember m)
    {x : Nat × Nat} (hx : p.memberSizeAlign m = some x) :
    ∀ b ∈ (m.shape x).bits, 1 ≤ b ∧ b ≤ 8 * (m.shape x).size := by
  intro b hb
  obtain ⟨w, hw, hlo, hhi⟩ := h.bits b hb
  -- an integer member is no error member, so its size is that of its width
  have hne : m.ty.isError = false := by
    cases herr : m.ty.isError
    · rfl
    · rw [TypeId.isError_iff.1 herr, wf.get_error] at hw
      cases hw
  simp only [memberSizeAlign, hne, sizeAlign, hw] at hx
  cases hx
  refine ⟨hlo, ?_⟩
  cases w <;> simp_all [Member.shape, Width.bytes, Width.bits]

theorem SoundMembers.memberShapes_bits (wf : p.WellFormed) :
    ∀ {ms : List Member}, p.SoundMembers ms → ∀ {fields : List FieldShape},
      p.memberShapes ms = some fields → ∀ f ∈ fields, ∀ b ∈ f.bits, 1 ≤ b ∧ b ≤ 8 * f.size
  | [], _, fields, hs => by
    simp only [memberShapes, List.mapM_nil, Option.pure_def, Option.some.injEq] at hs
    simp [← hs]
  | m :: ms, h, fields, hs => by
    rw [memberShapes_cons] at hs
    cases hx : p.memberSizeAlign m with
    | none => simp [hx] at hs
    | some x =>
      cases hrest : p.memberShapes ms with
      | none => simp [hx, hrest] at hs
      | some rest =>
        simp only [hx, hrest, Option.bind_some, Option.map_some, Option.some.injEq] at hs
        subst hs
        intro f hf
        rcases List.mem_cons.1 hf with rfl | hf
        · exact (h.sound m List.mem_cons_self).shape_bits wf hx
        · exact h.tail.memberShapes_bits wf hrest f hf

/-- Every shape list the layout engine reads off a record of a well-membered pool satisfies the
precondition of `structLayout`. -/
theorem WellMembered.memberShapes_bits (wf : p.WellFormed) (h : p.WellMembered) {rid : Nat}
    (hrid : rid < p.records.size) {fields : List FieldShape}
    (hs : p.memberShapes (p.record rid).members = some fields) :
    ∀ f ∈ fields, ∀ b ∈ f.bits, 1 ≤ b ∧ b ≤ 8 * f.size :=
  (h rid hrid).memberShapes_bits wf hs

theorem keepsInts_decay (p : TypePool) (t : TypeId) : p.KeepsInts (p.decay t).1 := by
  unfold TypePool.decay
  split
  · exact (intern_extends _ _).toKeeps.keepsInts
  · exact (intern_extends _ _).toKeeps.keepsInts
  · exact KeepsInts.refl p

theorem intWidth?_eq_some_iff {t : TypeId} {w : Width} : p.intWidth? t = some w ↔ p.get t = .int w := by
  unfold intWidth?
  split <;> simp_all

end TypePool

theorem TypeId.error_ne_void : TypeId.error ≠ TypeId.void := by decide

@[simp] theorem TypeId.isVoid_iff {t : TypeId} : t.isVoid = true ↔ t = .void := by
  cases t
  simp [TypeId.isVoid, TypeId.void]

namespace CheckState

/-- The pool of the state gives the integer types of `p₀` their widths, and its records have
sound members: what every step of the checker keeps. -/
def Membered (p₀ : TypePool) (s : CheckState) : Prop :=
  p₀.KeepsInts s.pool ∧ s.pool.WellMembered

/-- A step to a pool that keeps the integer types and is well membered keeps the invariant. -/
theorem Membered.step {p₀ : TypePool} {s s' : CheckState} (h : s.Membered p₀)
    (hk : s.pool.KeepsInts s'.pool) (hw : s'.pool.WellMembered) : s'.Membered p₀ :=
  ⟨h.1.trans hk, hw⟩

end CheckState

namespace Check

open Std.Do CheckM CheckState TypePool

/-! ## The rules keep the members sound -/

section Rules

variable (p₀ : TypePool)

theorem report_members (d : Diagnostic) :
    ⦃fun s => ⌜s.Membered p₀⌝⦄ report d ⦃⇓ _ s => ⌜s.Membered p₀⌝⦄ := by
  mvcgen [report, -report_spec]

theorem fail_members (code : Code) (span : Span) (message : String) :
    ⦃fun s => ⌜s.Membered p₀⌝⦄ fail code span message ⦃⇓ _ s => ⌜s.Membered p₀⌝⦄ := by
  mvcgen [fail, report_members, -fail_spec, -report_spec]

/-- A pool operation that keeps the integer types and the records well membered. -/
theorem withPool_members (f : TypePool → TypePool × TypeId)
    (hf : ∀ p, p.WellMembered → p.KeepsInts (f p).1 ∧ (f p).1.WellMembered) :
    ⦃fun s => ⌜s.Membered p₀⌝⦄ withPool f ⦃⇓ _ s => ⌜s.Membered p₀⌝⦄ := by
  mvcgen [withPool]
  rename_i s hs _
  exact hs.step (hf s.pool hs.2).1 (hf s.pool hs.2).2

theorem intern_members (p : TypePool) (d : TypeData) (h : p.WellMembered) :
    p.KeepsInts (p.intern d).1 ∧ (p.intern d).1.WellMembered :=
  ⟨(intern_extends p d).toKeeps.keepsInts, h.intern d⟩

theorem pointer_members (e : TypeId) :
    ⦃fun s => ⌜s.Membered p₀⌝⦄ pointer e ⦃⇓ _ s => ⌜s.Membered p₀⌝⦄ := by
  have hpool := withPool_members p₀ (·.pointer e) fun p h => intern_members p (.array e none) h
  mvcgen [CheckM.pointer, hpool, -pointer_spec]

theorem array_members (e : TypeId) (len : Nat) :
    ⦃fun s => ⌜s.Membered p₀⌝⦄ array e len ⦃⇓ _ s => ⌜s.Membered p₀⌝⦄ := by
  have hpool := withPool_members p₀ (·.array e len) fun p h =>
    intern_members p (.array e (some len)) h
  mvcgen [CheckM.array, hpool, -array_spec]

theorem func_members (ret : TypeId) (params : List TypeId) (variadic : Bool) :
    ⦃fun s => ⌜s.Membered p₀⌝⦄ func ret params variadic ⦃⇓ _ s => ⌜s.Membered p₀⌝⦄ := by
  have hpool := withPool_members p₀ (·.func ret params variadic) fun p h =>
    intern_members p (.func ret params variadic) h
  mvcgen [CheckM.func, hpool, -func_spec]

theorem decay_members (ty : TypeId) :
    ⦃fun s => ⌜s.Membered p₀⌝⦄ decay ty ⦃⇓ _ s => ⌜s.Membered p₀⌝⦄ := by
  have hpool := withPool_members p₀ (·.decay ty) fun p h => ⟨keepsInts_decay p ty, h.decay ty⟩
  mvcgen [CheckM.decay, hpool, -CheckM.decay_spec]

theorem setExprType_members (i : Nat) (ty : TypeId) :
    ⦃fun s => ⌜s.Membered p₀⌝⦄ setExprType i ty
    ⦃⇓ _ s => ⌜s.Membered p₀⌝⦄ := by
  mvcgen [setExprType, -setExprType_spec]

theorem setTypeNode_members (i : Nat) (ty : TypeId) :
    ⦃fun s => ⌜s.Membered p₀⌝⦄ setTypeNode i ty
    ⦃⇓ _ s => ⌜s.Membered p₀⌝⦄ := by
  mvcgen [setTypeNode, -setTypeNode_spec]

theorem setConst_members (i : Nat) (v : Option Nat) :
    ⦃fun s => ⌜s.Membered p₀⌝⦄ setConst i v
    ⦃⇓ _ s => ⌜s.Membered p₀⌝⦄ := by
  cases v <;> mvcgen [setConst, -setConst_spec]

theorem bind_members (i sym : Nat) :
    ⦃fun s => ⌜s.Membered p₀⌝⦄ bind i sym
    ⦃⇓ _ s => ⌜s.Membered p₀⌝⦄ := by
  mvcgen [CheckM.bind, -bind_spec]

theorem modifySymbol_members (i : Nat) (f : Symbol → Symbol) :
    ⦃fun s => ⌜s.Membered p₀⌝⦄ modifySymbol i f
    ⦃⇓ _ s => ⌜s.Membered p₀⌝⦄ := by
  mvcgen [modifySymbol, -modifySymbol_spec]

theorem setLayout_members (rid : Nat) (st : LayoutState) :
    ⦃fun s => ⌜s.Membered p₀⌝⦄ setLayout rid st ⦃⇓ _ s => ⌜s.Membered p₀⌝⦄ := by
  mvcgen [setLayout]
  rename_i s hs _
  exact hs.step (keepsInts_modifyRecord _ _ _) (hs.2.setLayout rid st)

theorem setTypeDeclState_members (d : Decl) (st : TypeDeclState) :
    ⦃fun s => ⌜s.Membered p₀⌝⦄ setTypeDeclState d st
    ⦃⇓ _ s => ⌜s.Membered p₀⌝⦄ := by
  mvcgen [setTypeDeclState, -setTypeDeclState_spec]

theorem widenRight_members (right : Expr) (lt rt : TypeId) :
    ⦃fun s => ⌜s.Membered p₀⌝⦄ widenRight right lt rt
    ⦃⇓ _ s => ⌜s.Membered p₀⌝⦄ := by
  mvcgen [widenRight, decay_members, -widenRight_spec, -CheckM.decay_spec]

theorem checkAssignable_members (found expected : TypeId) (span : Span) (context : String) :
    ⦃fun s => ⌜s.Membered p₀⌝⦄ checkAssignable found expected span context
    ⦃⇓ _ s => ⌜s.Membered p₀⌝⦄ := by
  mvcgen [checkAssignable, fail_members, report_members, -checkAssignable_spec, -fail_spec,
    -report_spec]

theorem checkCast_members (source target : TypeId) (signed : Bool) (span : Span) :
    ⦃fun s => ⌜s.Membered p₀⌝⦄ checkCast source target signed span
    ⦃⇓ _ s => ⌜s.Membered p₀⌝⦄ := by
  mvcgen [checkCast, fail_members, report_members, -checkCast_spec, -fail_spec, -report_spec]

theorem arithResult_members (op : BinaryOp) (lt rt : TypeId) (right : Expr) (span : Span) :
    ⦃fun s => ⌜s.Membered p₀⌝⦄ arithResult op lt rt right span
    ⦃⇓ _ s => ⌜s.Membered p₀⌝⦄ := by
  have hwiden := widenRight_members p₀
  mvcgen [arithResult, hwiden, report_members, -arithResult_spec,
    -widenRight_spec, -report_spec]

theorem foldArith_members (id : Nat) (op : BinaryOp) (left right : Expr) (ty : TypeId) :
    ⦃fun s => ⌜s.Membered p₀⌝⦄ foldArith id op left right ty
    ⦃⇓ _ s => ⌜s.Membered p₀⌝⦄ := by
  mvcgen [foldArith, setConst_members, -foldArith_spec, -setConst_spec]

theorem condResult_members (id : Nat) (op : CondOp) (left right : Expr) (lt rt : TypeId)
    (span : Span) :
    ⦃fun s => ⌜s.Membered p₀⌝⦄ condResult id op left right lt rt span
    ⦃⇓ _ s => ⌜s.Membered p₀⌝⦄ := by
  mvcgen [condResult, report_members, setConst_members, widenRight_members,
    -condResult_spec, -report_spec, -setConst_spec, -widenRight_spec]

theorem ternaryResult_members (id : Nat) (cond thenE elseE : Expr) (thenTy elseTy : TypeId) :
    ⦃fun s => ⌜s.Membered p₀⌝⦄ ternaryResult id cond thenE elseE thenTy elseTy
    ⦃⇓ _ s => ⌜s.Membered p₀⌝⦄ := by
  have hreport := report_members p₀
  have hdecay := decay_members p₀
  have hconst := setConst_members p₀
  mvcgen [ternaryResult, hreport, hconst, hdecay,
    -ternaryResult_spec, -report_spec, -setConst_spec, -CheckM.decay_spec]

theorem callResult_members (func : Expr) (args : List Expr) (callee : TypeId)
    (argTypes : List TypeId) :
    ⦃fun s => ⌜s.Membered p₀⌝⦄ callResult func args callee argTypes
    ⦃⇓ _ s => ⌜s.Membered p₀⌝⦄ := by
  mvcgen [callResult, fail_members, checkAssignable_members, -callResult_spec, -fail_spec,
    -checkAssignable_spec] invariants
  · ⇓ _ s => ⌜s.Membered p₀⌝
  · ⇓ _ s => ⌜s.Membered p₀⌝

theorem indexResult_members (array index : Expr) (base indexTy : TypeId) :
    ⦃fun s => ⌜s.Membered p₀⌝⦄ indexResult array index base indexTy
    ⦃⇓ _ s => ⌜s.Membered p₀⌝⦄ := by
  mvcgen [indexResult, fail_members, -indexResult_spec, -fail_spec]

theorem accessResult_members (ty : TypeId) (member : String) (memberSpan : Span) :
    ⦃fun s => ⌜s.Membered p₀⌝⦄ accessResult ty member memberSpan
    ⦃⇓ _ s => ⌜s.Membered p₀⌝⦄ := by
  mvcgen [accessResult, fail_members, -accessResult_spec, -fail_spec]

theorem castResult_members (id : Nat) (inner : Expr) (source target : TypeId) (signed : Bool)
    (span : Span) :
    ⦃fun s => ⌜s.Membered p₀⌝⦄ castResult id inner source target signed span
    ⦃⇓ _ s => ⌜s.Membered p₀⌝⦄ := by
  mvcgen [castResult, checkCast_members, setConst_members, -castResult_spec, -checkCast_spec,
    -setConst_spec]

theorem derefResult_members (inner : Expr) (ty : TypeId) :
    ⦃fun s => ⌜s.Membered p₀⌝⦄ derefResult inner ty
    ⦃⇓ _ s => ⌜s.Membered p₀⌝⦄ := by
  mvcgen [derefResult, fail_members, -derefResult_spec, -fail_spec]

theorem addrOfResult_members (inner : Expr) (ty : TypeId) :
    ⦃fun s => ⌜s.Membered p₀⌝⦄ addrOfResult inner ty
    ⦃⇓ _ s => ⌜s.Membered p₀⌝⦄ := by
  mvcgen [addrOfResult, fail_members, pointer_members, -addrOfResult_spec, -fail_spec,
    -pointer_spec]

theorem unaryResult_members (id : Nat) (op : UnaryOp) (operand : Expr) (ty : TypeId)
    (span : Span) :
    ⦃fun s => ⌜s.Membered p₀⌝⦄ unaryResult id op operand ty span
    ⦃⇓ _ s => ⌜s.Membered p₀⌝⦄ := by
  mvcgen [unaryResult, fail_members, setConst_members, -unaryResult_spec, -fail_spec,
    -setConst_spec]

theorem assignResult_members (op : Option BinaryOp) (target value : Expr)
    (targetTy valueTy : TypeId) (span : Span) :
    ⦃fun s => ⌜s.Membered p₀⌝⦄ assignResult op target value targetTy valueTy span
    ⦃⇓ _ s => ⌜s.Membered p₀⌝⦄ := by
  mvcgen [assignResult, fail_members, arithResult_members, checkAssignable_members,
    -assignResult_spec, -fail_spec, -arithResult_spec, -checkAssignable_spec]

theorem nameResult_members (id : Nat) (name : String) (span : Span) :
    ⦃fun s => ⌜s.Membered p₀⌝⦄ nameResult id name span
    ⦃⇓ _ s => ⌜s.Membered p₀⌝⦄ := by
  mvcgen [nameResult, report_members, fail_members, bind_members, setConst_members,
    -nameResult_spec, -report_spec, -fail_spec, -bind_spec, -setConst_spec]

/-- A bit width the check keeps is one the member's integer type allows. -/
theorem checkBitfield_members (name : String) (ty : TypeId) (bits : Nat) (span : Span) :
    ⦃fun s => ⌜s.Membered p₀⌝⦄ checkBitfield name ty bits span
    ⦃⇓ r s => ⌜s.Membered p₀ ∧ ∀ b ∈ r, ∃ w, s.pool.get ty = .int w ∧ 1 ≤ b ∧ b ≤ w.bits⌝⦄ := by
  mvcgen [checkBitfield, fail_members, -checkBitfield_spec, -fail_spec]
  all_goals simp_all [intWidth?_eq_some_iff, Nat.one_le_iff_ne_zero]

/-- A member the check keeps is sound, has the name of its declaration, which no member seen
before has, and joins the names seen; a member it drops leaves them as they were. -/
theorem memberResult_members (seen : List (String × Span)) (m : MemberDecl) (ty : TypeId) :
    ⦃fun s => ⌜s.Membered p₀⌝⦄ memberResult seen m ty
    ⦃⇓ r s => ⌜s.Membered p₀ ∧ (r.1 = none → r.2 = seen) ∧ ∀ member ∈ r.1,
      s.pool.SoundMember member ∧ member.name = m.name ∧ m.name ∉ seen.map Prod.fst ∧
      r.2 = (m.name, m.span) :: seen⌝⦄ := by
  mvcgen [memberResult, report_members, fail_members, checkBitfield_members,
    -memberResult_spec, -report_spec, -fail_spec, -checkBitfield_spec]
  all_goals simp_all [soundMember_iff, TypeId.error_ne_void]
  -- a name absent from the names seen is the first component of none of them
  all_goals exact fun _ hx => ‹∀ (a : String) (b : Span), (a, b) ∈ seen → ¬m.name = a› _ _ hx rfl

theorem paramType_members (param : TypeExpr) (ty : TypeId) :
    ⦃fun s => ⌜s.Membered p₀⌝⦄ paramType param ty
    ⦃⇓ _ s => ⌜s.Membered p₀⌝⦄ := by
  mvcgen [paramType, fail_members, -paramType_spec, -fail_spec]

theorem sizedArrayResult_members (elem : TypeId) (size : Expr) (sizeTy : TypeId) :
    ⦃fun s => ⌜s.Membered p₀⌝⦄ sizedArrayResult elem size sizeTy
    ⦃⇓ _ s => ⌜s.Membered p₀⌝⦄ := by
  mvcgen [sizedArrayResult, fail_members, array_members, -sizedArrayResult_spec, -fail_spec,
    -array_spec]

theorem openRecord_members (node : TypeExpr) (kind : RecordKind) (name : Option String)
    (binding : Option Nat) :
    ⦃fun s => ⌜s.Membered p₀⌝⦄ openRecord node kind name binding ⦃⇓ _ s => ⌜s.Membered p₀⌝⦄ := by
  mvcgen [openRecord, setTypeNode_members, modifySymbol_members, setLayout_members,
    -openRecord_spec, -setTypeNode_spec, -modifySymbol_spec]
  rename_i s hs _
  exact hs.step (newRecord_extends _ _ _ _ _).toKeeps.keepsInts (hs.2.newRecord _ _ _ _)

/-- Closing a record with sound members keeps every record's members sound. -/
theorem closeRecord_members (rid : Nat) (ms : List Member) :
    ⦃fun s => ⌜s.Membered p₀ ∧ s.pool.SoundMembers ms⌝⦄ closeRecord rid ms
    ⦃⇓ _ s => ⌜s.Membered p₀⌝⦄ := by
  mvcgen [closeRecord, setLayout_members, -closeRecord_spec]
  all_goals
    rename_i s hs _ _
    exact hs.1.step (keepsInts_modifyRecord _ _ _) (hs.1.2.setMembers rid hs.2)

theorem setDeclType_members (i : Nat) (ty : TypeId) :
    ⦃fun s => ⌜s.Membered p₀⌝⦄ setDeclType i ty
    ⦃⇓ _ s => ⌜s.Membered p₀⌝⦄ := by
  mvcgen [setDeclType, -setDeclType_spec]

theorem stringInitResult_members (found ty : TypeId) (span : Span) :
    ⦃fun s => ⌜s.Membered p₀⌝⦄ stringInitResult found ty span ⦃⇓ _ s => ⌜s.Membered p₀⌝⦄ := by
  have hfail := fail_members p₀
  have hassignable := checkAssignable_members p₀
  mvcgen [stringInitResult, hfail, hassignable, -stringInitResult_spec, -fail_spec,
    -checkAssignable_spec]

theorem arrayInitResult_members (elements : List Expr) (elem : TypeId) (len : Option Nat)
    (ty : TypeId) (span : Span) :
    ⦃fun s => ⌜s.Membered p₀⌝⦄ arrayInitResult elements elem len ty span
    ⦃⇓ _ s => ⌜s.Membered p₀⌝⦄ := by
  mvcgen [arrayInitResult, report_members, array_members, -arrayInitResult_spec, -report_spec,
    -array_spec]

end Rules

/-- The layout engine changes only layouts, at any fuel. -/
theorem layout_members (fuel : Nat) (p₀ : TypePool) :
    (∀ rid : Nat, ⦃fun s => ⌜s.Membered p₀⌝⦄ ensureLayout fuel rid ⦃⇓ _ s => ⌜s.Membered p₀⌝⦄) ∧
    (∀ ty : TypeId, ⦃fun s => ⌜s.Membered p₀⌝⦄ sizeAlignOf fuel ty ⦃⇓ _ s => ⌜s.Membered p₀⌝⦄) ∧
    (∀ ms : List Member,
      ⦃fun s => ⌜s.Membered p₀⌝⦄ shapeMembers fuel ms ⦃⇓ _ s => ⌜s.Membered p₀⌝⦄) := by
  induction fuel with
  | zero =>
    refine ⟨fun _ => ?_, fun _ => ?_, fun _ => ?_⟩ <;>
      mvcgen [ensureLayout, sizeAlignOf, shapeMembers]
  | succ n ih =>
    obtain ⟨hensure, hsize, hshape⟩ := ih
    have hreport := report_members p₀
    have hlayout := setLayout_members p₀
    refine ⟨fun rid => ?_, fun ty => ?_, fun ms => ?_⟩
    · mvcgen [ensureLayout, hshape, hreport, hlayout, -report_spec]
    · mvcgen [sizeAlignOf, hensure, hsize]
    · cases ms with
      | nil => mvcgen [shapeMembers]
      | cons m ms => mvcgen [shapeMembers, hsize, hshape]

theorem sizeAlign_members (ty : TypeId) (p₀ : TypePool) :
    ⦃fun s => ⌜s.Membered p₀⌝⦄ sizeAlign ty ⦃⇓ _ s => ⌜s.Membered p₀⌝⦄ := by
  have hsize := fun fuel => (layout_members fuel p₀).2.1 ty
  mvcgen [sizeAlign, hsize, -sizeAlign_spec]

theorem sizeofResult_members (id : Nat) (ty : TypeId) (span : Span) (p₀ : TypePool) :
    ⦃fun s => ⌜s.Membered p₀⌝⦄ sizeofResult id ty span ⦃⇓ _ s => ⌜s.Membered p₀⌝⦄ := by
  have hsize := sizeAlign_members ty p₀
  have hfail := fail_members p₀
  have hconst := setConst_members p₀
  mvcgen [sizeofResult, hsize, hfail, hconst, -sizeofResult_spec, -sizeAlign_spec, -fail_spec,
    -setConst_spec]

end Check

end SolarFront
