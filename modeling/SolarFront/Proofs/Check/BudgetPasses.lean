import SolarFront.Proofs.Check.BudgetTyping
import SolarFront.Syntax.Parse.Module
import SolarFront.Syntax.Token.Lex

/-!
# The module's budget suffices

`Module.check` gives the typing functions the budget `budgetFor nodeCount` as their fuel. When
the module has at most `nodeCount` nodes the budget never runs out: checking with any larger
budget ends in the same state, but for the budget itself (`Module.check_budget_suffices`).

The passes read the budget only through the entry points (`typeOfNode`, `typeOfExpr`, ...),
each of which hands it to a typing function on one node of a declaration. By `settled` such a
call gives the same at every larger fuel once the budget covers eight times the nodes of the
node and of the type declarations still unresolved, with a few units to spare (`Fits`). What
the passes keep so that this holds at each call is `Ready`: the type declarations come from
the module, the budget is the one the check started with, and every queued body belongs to a
function of the module.
-/

set_option autoImplicit false
set_option linter.all false

namespace SolarFront

namespace Check

open CheckM

variable {α β : Type} {ds : List Decl} {n : Nat}

/-- What the passes keep: type declarations of `ds`, the budget `n`, and queued bodies of
functions of `ds`. -/
structure Ready (ds : List Decl) (n : Nat) (s : CheckState) : Prop where
  typeDecls : s.TypeDeclsFrom ds
  budget : s.budget = n
  pending : ∀ p ∈ s.pending.toList, p.1 ∈ ds ∧ p.1.typeSize = 0

/-- Run from the ready state `s`, `x` leaves a ready state, and under any larger budget it
returns the same and leaves the same state. -/
structure Keeps (ds : List Decl) (n : Nat) (x : CheckM α) (s : CheckState) : Prop where
  ready : Ready ds n (x.run s).2
  oblivious : ∀ B, n ≤ B → x.run (s.withBudget B) = ((x.run s).1, (x.run s).2.withBudget B)

/-- `x` keeps every ready state. -/
def Steady (ds : List Decl) (n : Nat) (x : CheckM α) : Prop :=
  ∀ s, Ready ds n s → Keeps ds n x s

/-- A budget of `n` covers a call on a node of `c` nodes, whatever type declarations of `ds`
are still unresolved. -/
def Fits (ds : List Decl) (n c : Nat) : Prop :=
  8 * ((ds.map Decl.typeSize).sum + c) + 5 ≤ n

theorem Fits.mono {c c' : Nat} (h : Fits ds n c) (hc : c' ≤ c) : Fits ds n c' := by
  unfold Fits at *
  omega

theorem Keeps.bind {x : CheckM α} {k : α → CheckM β} {s : CheckState} (hx : Keeps ds n x s)
    (hk : Keeps ds n (k (x.run s).1) (x.run s).2) : Keeps ds n (x >>= k) s where
  ready := hk.ready
  oblivious B hB := by rw [run_bind, run_bind, hx.oblivious B hB, hk.oblivious B hB]

namespace Steady

variable {x : CheckM α} {k : α → CheckM β}

theorem bind (hx : Steady ds n x) (hk : ∀ a, Steady ds n (k a)) : Steady ds n (x >>= k) :=
  fun s hs => (hx s hs).bind (hk _ _ (hx s hs).ready)

/-- A plain step keeps a ready state: it leaves the budget, the type declarations and the
queue alone. -/
theorem of_plain (hx : Plain x) : Steady ds n x := fun s hs => by
  refine ⟨⟨?_, (hx.budget s).trans hs.budget, ?_⟩, fun B _ => hx.oblivious s B⟩
  · unfold CheckState.TypeDeclsFrom
    rw [hx.typeDecls]
    exact hs.typeDecls
  · rw [hx.pending]
    exact hs.pending

theorem pure (a : α) : Steady ds n (Pure.pure a : CheckM α) := of_plain (.pure a)

theorem map (f : α → β) (hx : Steady ds n x) : Steady ds n (f <$> x) :=
  hx.bind fun _ => pure _

theorem discard (hx : Steady ds n x) : Steady ds n (Functor.discard x) :=
  hx.map _

/-- A step that reads the state, argued for the ready state it reads. -/
theorem get_bind_at {k : CheckState → CheckM α} (hk : ∀ s B, k (s.withBudget B) = k s)
    (hk' : ∀ s, Ready ds n s → Keeps ds n (k s) s) : Steady ds n (get >>= k) := fun s hs => by
  have h := hk' s hs
  refine ⟨h.ready, fun B hB => ?_⟩
  rw [run_bind, run_bind]
  exact (hk s B).symm ▸ h.oblivious B hB

theorem get_bind {k : CheckState → CheckM α} (hk : ∀ s B, k (s.withBudget B) = k s)
    (hk' : ∀ s₀, Steady ds n (k s₀)) : Steady ds n (get >>= k) :=
  get_bind_at hk fun s hs => hk' s s hs

/-- A loop whose every round keeps a ready state. -/
theorem forIn {γ : Type} {l : List γ} {init : β} {f : γ → β → CheckM (ForInStep β)}
    (hf : ∀ a ∈ l, ∀ b, Steady ds n (f a b)) : Steady ds n (ForIn.forIn l init f) := by
  induction l generalizing init with
  | nil => exact pure _
  | cons a l ih =>
    rw [List.forIn_cons]
    refine (hf a List.mem_cons_self init).bind fun step => ?_
    cases step with
    | done b => exact pure _
    | yield b => exact ih fun a ha => hf a (List.mem_cons_of_mem _ ha)

/-- An entry point: a typing function run with the budget as its fuel, on a node whose rank
the budget covers. -/
theorem entry {f : Nat → CheckM α} {ℓ : Nat} (hf : ∀ m, n ≤ m → Sim ds n ℓ (f m) (f n))
    (hℓ : 8 * (ds.map Decl.typeSize).sum + ℓ ≤ n) :
    Steady ds n (get >>= fun s => f s.budget) := fun s hs => by
  have hroom := s.unresolvedSize_le_typeSize ds
  have hagree : ∀ B, n ≤ B → Agrees (f B) (f n) s := fun B hB =>
    hf B hB s hs.typeDecls (by omega)
  have hn := hagree n le_rfl
  have hrun : ∀ t : CheckState, (get >>= fun s => f s.budget).run t = (f t.budget).run t :=
    fun _ => rfl
  -- the run at fuel `n` keeps the budget, being its own run at the budget `n`
  have hbudget : ((f n).run s).2.budget = n := by
    have h := congrArg (fun p => p.2.budget) (hn.oblivious n)
    have hs' : s.withBudget n = s := hs.budget ▸ CheckState.withBudget_budget s
    simpa only [hs', CheckState.budget_withBudget] using h
  refine ⟨?_, fun B hB => ?_⟩
  · rw [hrun, hs.budget]
    exact ⟨hs.typeDecls.advance hn.advances, hbudget, hn.advances.pending ▸ hs.pending⟩
  · rw [hrun, hrun, CheckState.budget_withBudget, hs.budget]
    exact (hagree B hB).oblivious B

end Steady

/-! ## The entry points -/

section Entries

variable (t : TypeExpr) (e : Expr)

theorem typeOfNode_steady (h : Fits ds n t.size) : Steady ds n (typeOfNode t) := by
  unfold Fits at h
  exact Steady.entry (fun m hm => (settled ds n).type t m hm) (by omega)

theorem typeOfExpr_steady (h : Fits ds n e.size) : Steady ds n (typeOfExpr e) := by
  unfold Fits at h
  exact Steady.entry (fun m hm => (settled ds n).expr e m hm) (by omega)

theorem typeOfValue_steady (h : Fits ds n e.size) : Steady ds n (typeOfValue e) := by
  unfold Fits at h
  exact Steady.entry (fun m hm => (settled ds n).value e m hm) (by omega)

theorem typeOfCondition_steady (h : Fits ds n e.size) : Steady ds n (typeOfCondition e) := by
  unfold Fits at h
  exact Steady.entry (fun m hm => (settled ds n).condition e m hm) (by omega)

theorem typeOfInit_steady (ty : TypeId) (h : Fits ds n e.size) :
    Steady ds n (typeOfInit e ty) := by
  unfold Fits at h
  exact Steady.entry (fun m hm => (settled ds n).init e ty m hm) (by omega)

theorem declareRecord_steady (node : TypeExpr) (kind : RecordKind) (name : Option String)
    (members : List MemberDecl) (binding : Option Nat) (h : Fits ds n (MemberDecl.listSize members)) :
    Steady ds n (declareRecord node kind name members binding) := by
  unfold Fits at h
  exact Steady.entry (fun m hm => (settled ds n).record node kind name members binding m hm)
    (by omega)

theorem resolveTypeDecl_steady (declId sym : Nat) (h : Fits ds n 0) :
    Steady ds n (resolveTypeDecl declId sym) := by
  unfold Fits at h
  exact Steady.entry (fun m hm => (settled ds n).typeDecl declId sym m hm) (by omega)

end Entries

/-! ## Declarations -/

section Decls

variable {d : Decl}

theorem checkVar_steady (value : Option Expr) (isStatic : Bool)
    (h : Fits ds n (d.ty.size + (value.map Expr.size).getD 0)) :
    Steady ds n (checkVar d value isStatic) := by
  unfold checkVar
  refine .get_bind (fun _ _ => rfl) fun s₀ => ?_
  refine (typeOfNode_steady _ (h.mono (by omega))).bind fun declared =>
    Steady.bind ?_ fun ty => Steady.bind ?_ fun ty => .of_plain ?_
  · split
    · exact .of_plain ((fail_plain ..).bind fun _ => .pure _)
    · exact .pure _
  · cases value with
    | some v =>
      exact (typeOfInit_steady v _ (h.mono (by simp))).bind fun _ =>
        .of_plain ((constantInitCheck_plain ..).bind fun _ => .pure _)
    | none =>
      refine .of_plain ?_
      dsimp only
      split
      · exact (fail_plain ..).bind fun _ => .pure _
      · exact .pure _
  · refine (bindDecl_plain _ _).bind fun bound => Plain.bind ?_ fun _ => setDeclType_plain _ _
    split
    · refine .get_bind (fun _ _ => rfl) fun s => ?_
      split
      · exact .modify (fun _ _ => rfl) (fun _ => rfl) (fun _ => rfl)
      · exact .pure _
    · exact .pure _

theorem checkConst_steady (value : Expr) (isStatic : Bool) (h : Fits ds n (d.ty.size + value.size)) :
    Steady ds n (checkConst d value isStatic) := by
  unfold checkConst
  refine (typeOfNode_steady _ (h.mono (by omega))).bind fun declared =>
    .get_bind (fun _ _ => rfl) fun s₀ => Steady.bind ?_ fun ty =>
      (typeOfValue_steady value (h.mono (by omega))).bind fun found => .of_plain ?_
  · refine .of_plain ?_
    split
    · exact (fmt_plain _).bind fun _ => (fail_plain ..).bind fun _ => .pure _
    · exact .pure _
  · exact (checkAssignable_plain ..).discard.bind fun _ => (constValue_plain ..).bind fun _ =>
      .get_bind (fun _ _ => rfl) fun _ => (bindDecl_plain _ _).discard.bind fun _ =>
        setDeclType_plain _ _

/-- Queueing the body of a function of `ds` keeps a ready state. -/
theorem queueBody_steady (hd : d ∈ ds) (hk : d.typeSize = 0) (ty : TypeId) :
    Steady ds n (modify fun s : CheckState => { s with pending := s.pending.push (d, ty) } :
      CheckM Unit) := fun s hs => by
  refine ⟨⟨hs.typeDecls, hs.budget, fun p hp => ?_⟩, fun _ _ => rfl⟩
  change p ∈ (s.pending.push (d, ty)).toList at hp
  rw [Array.toList_push, List.mem_append, List.mem_singleton] at hp
  rcases hp with hp | rfl
  · exact hs.pending p hp
  · exact ⟨hd, hk⟩

theorem checkFuncDecl_steady (hasBody isStatic isInline : Bool) (hd : d ∈ ds) (hk : d.typeSize = 0)
    (h : Fits ds n d.ty.size) : Steady ds n (checkFuncDecl d hasBody isStatic isInline) := by
  unfold checkFuncDecl
  refine (typeOfNode_steady _ h).bind fun ty => Steady.bind (.of_plain ?_) fun _ =>
    (Steady.of_plain (bindDecl_plain _ _).discard).bind fun _ =>
      (Steady.of_plain (setDeclType_plain _ _)).bind fun _ => ?_
  · split
    · exact fail_plain ..
    · exact .pure _
  · split
    · exact queueBody_steady hd hk ty
    · exact .pure _

theorem defineLocalType_steady (h : Fits ds n d.ty.size) : Steady ds n (defineLocalType d) := by
  unfold defineLocalType
  refine Steady.bind ?_ fun ty => .of_plain (setDeclType_plain _ _)
  split
  · rename_i kind members hkind
    have hsize : d.ty.size = MemberDecl.listSize members + 1 := by
      rw [TypeExpr.size_eq, hkind, TypeExprKind.size]
    exact (Steady.of_plain (bindDecl_plain _ _)).bind fun sym =>
      declareRecord_steady _ _ _ _ _ (h.mono (by omega))
  · exact (typeOfNode_steady _ h).bind fun ty =>
      .of_plain ((bindDecl_plain _ _).discard.bind fun _ => .pure _)

theorem checkLocalDecl_steady (h : Fits ds n d.size) : Steady ds n (checkLocalDecl d) := by
  unfold checkLocalDecl
  have hsize := d.size_eq
  split
  · rename_i value isStatic hkind
    rw [hkind, DeclKind.size] at hsize
    exact checkVar_steady value isStatic (h.mono (by omega))
  · rename_i value isStatic hkind
    rw [hkind, DeclKind.size] at hsize
    exact checkConst_steady value isStatic (h.mono (by omega))
  · exact .pure _
  · exact defineLocalType_steady (h.mono (by omega))

/-- Marking a type declaration of `ds` keeps a ready state. -/
theorem setTypeDeclState_steady (hd : d ∈ ds) (hk : d.kind = .type) (st : TypeDeclState) :
    Steady ds n (setTypeDeclState d st) := fun s hs => by
  refine ⟨⟨fun k d' st' h => ?_, hs.budget, hs.pending⟩, fun _ _ => rfl⟩
  rw [typeDecls_setTypeDeclState] at h
  split at h
  · obtain ⟨rfl, -⟩ := Prod.mk.inj (Option.some.inj h)
    exact ⟨hd, by assumption, hk⟩
  · exact hs.typeDecls k d' st' h

theorem bindGlobalType_steady (hd : d ∈ ds) : Steady ds n (bindGlobalType d) := by
  unfold bindGlobalType
  split
  · rename_i hkind
    refine (Steady.of_plain (bindDecl_plain _ _)).bind fun bound => ?_
    split
    · exact setTypeDeclState_steady hd hkind _
    · exact .pure _
  · exact .pure _

/-- A budget of eight times a module's nodes, and a little more, covers each declaration that
is not a type declaration: its nodes lie outside the types of the type declarations. -/
theorem fits_decl {m : Module} (hd : d ∈ m.decls) (hk : d.typeSize = 0) (h : 8 * m.size + 5 ≤ n) :
    Fits m.decls n d.size := by
  have := m.typeSize_add_le hd hk
  unfold Fits
  omega

/-- Checking a module-level declaration keeps a ready state: a type declaration calls at the
lowest rank, and any other declaration has its own nodes to spend. -/
theorem checkDecl_steady {m : Module} (hd : d ∈ m.decls) (h : 8 * m.size + 5 ≤ n) :
    Steady m.decls n (checkDecl d) := by
  have hfits : d.typeSize = 0 → Fits m.decls n d.size := fun hk => fits_decl hd hk h
  have hsize := d.size_eq
  unfold checkDecl
  split
  · rename_i value isStatic hkind
    have hk : d.typeSize = 0 := by rw [Decl.typeSize, hkind]
    rw [hkind, DeclKind.size] at hsize
    exact checkVar_steady value isStatic ((hfits hk).mono (by omega))
  · rename_i value isStatic hkind
    have hk : d.typeSize = 0 := by rw [Decl.typeSize, hkind]
    rw [hkind, DeclKind.size] at hsize
    exact checkConst_steady value isStatic ((hfits hk).mono (by omega))
  · rename_i params body isStatic isInline hkind
    have hk : d.typeSize = 0 := by rw [Decl.typeSize, hkind]
    exact checkFuncDecl_steady _ _ _ hd hk ((hfits hk).mono (by omega))
  · have hroom : Fits m.decls n 0 := by
      have : (m.decls.map Decl.typeSize).sum ≤ m.size := List.sum_le_sum fun d _ => d.typeSize_le
      unfold Fits
      omega
    refine .get_bind (fun _ _ => rfl) fun s₀ => ?_
    split
    · exact resolveTypeDecl_steady _ _ hroom
    · exact .pure _

end Decls

/-! ## Statements and bodies -/

section Stmts

theorem withScope_steady {x : CheckM α} (hx : Steady ds n x) : Steady ds n (withScope x) :=
  (Steady.of_plain pushScope_plain).bind fun _ => hx.bind fun r =>
    (Steady.of_plain popScope_plain).bind fun _ => .pure r

theorem checkReturn_steady (value : Option Expr) (span : Span)
    (h : Fits ds n ((value.map Expr.size).getD 0)) : Steady ds n (checkReturn value span) := by
  unfold checkReturn
  refine .get_bind (fun _ _ => rfl) fun s₀ => ?_
  dsimp only
  split
  · refine .of_plain ?_
    split
    · exact (fmt_plain _).bind fun _ => fail_plain ..
    · exact .pure _
  · rename_i v
    refine (typeOfExpr_steady v (h.mono (by simp))).bind fun found => .of_plain ?_
    split
    · split
      · exact fail_plain ..
      · exact .pure _
    · exact (checkAssignable_plain ..).discard

mutual

/-- Checking a statement keeps a ready state: one case per form of statement, every part a
smaller node, the nested statements by the same theorem. -/
theorem checkStmt_steady (st : Stmt) (h : Fits ds n st.size) : Steady ds n (checkStmt st) := by
  obtain ⟨id, span, kind⟩ := st
  have hle : ∀ c, c ≤ kind.size → Fits ds n c := fun c hc => h.mono (by rw [Stmt.size]; omega)
  cases kind with
  | empty => exact .pure _
  | decl d => exact checkLocalDecl_steady (hle _ le_rfl)
  | block stmts => exact withScope_steady (checkStmts_steady stmts (hle _ le_rfl))
  | expr e => exact (typeOfExpr_steady e (hle _ le_rfl)).discard
  | jump jump label => exact .of_plain (checkJump_plain ..)
  | ret value => exact checkReturn_steady value span (hle _ le_rfl)
  | branch label cond thenS elseS =>
    simp only [StmtKind.size] at hle
    unfold checkStmt
    refine (typeOfCondition_steady cond (hle _ (by omega))).discard.bind fun _ =>
      (Steady.of_plain (pushTarget_plain ..)).bind fun _ =>
        (checkStmt_steady thenS (hle _ (by omega))).bind fun _ =>
          Steady.bind ?_ fun _ => .of_plain popTarget_plain
    cases elseS with
    | none => exact .pure _
    | some e => exact checkStmt_steady e (hle _ (by simp only [Stmt.optSize]; omega))
  | loop label init cond step body elseS =>
    simp only [StmtKind.size] at hle
    unfold checkStmt
    refine Steady.bind ?_ fun _ => Steady.bind ?_ fun _ => Steady.bind ?_ fun _ =>
      (Steady.of_plain (pushTarget_plain ..)).bind fun _ =>
        (checkStmt_steady body (hle _ (by omega))).bind fun _ =>
          (Steady.of_plain popTarget_plain).bind fun _ => ?_
    · cases init with
      | none => exact .pure _
      | some e => exact (typeOfExpr_steady e (hle _ (by simp only [Option.map_some, Option.getD_some]; omega))).discard
    · cases cond with
      | none => exact .pure _
      | some e => exact (typeOfCondition_steady e (hle _ (by simp only [Option.map_some, Option.getD_some]; omega))).discard
    · cases step with
      | none => exact .pure _
      | some e => exact (typeOfExpr_steady e (hle _ (by simp only [Option.map_some, Option.getD_some]; omega))).discard
    · cases elseS with
      | none => exact .pure _
      | some e => exact checkStmt_steady e (hle _ (by simp only [Stmt.optSize]; omega))

theorem checkStmts_steady (sts : List Stmt) (h : Fits ds n (Stmt.listSize sts)) :
    Steady ds n (checkStmts sts) := by
  cases sts with
  | nil => exact .pure _
  | cons st sts =>
    simp only [Stmt.listSize] at h
    simp only [checkStmts]
    exact (checkStmt_steady st (h.mono (by omega))).bind fun _ =>
      checkStmts_steady sts (h.mono (by omega))

end

theorem checkBody_steady (d : Decl) (funcTy : TypeId) (h : Fits ds n d.size) :
    Steady ds n (checkBody d funcTy) := by
  unfold checkBody
  split
  · rename_i params body isStatic isInline hkind
    have hbody : Fits ds n body.size :=
      h.mono (by rw [d.size_eq, hkind]; simp only [DeclKind.size, Stmt.optSize]; omega)
    refine .get_bind (fun _ _ => rfl) fun s₀ => ?_
    split
    rename_i ret types _
    refine .get_bind (fun _ _ => rfl) fun s₁ => .get_bind (fun _ _ => rfl) fun s₂ => ?_
    -- the labels and return type of the enclosing state are saved around the body
    refine Steady.bind ?_ fun _ => (Steady.of_plain pushScope_plain).bind fun _ =>
      (Steady.of_plain (declareParams_plain _ _)).bind fun _ => Steady.bind ?_ fun _ =>
        (Steady.of_plain popScope_plain).bind fun _ => Steady.bind ?_ fun _ => .of_plain ?_
    · exact .of_plain (.modify (fun _ _ => rfl) (fun _ => rfl) (fun _ => rfl))
    · split
      · rename_i stmts hstmts
        exact checkStmts_steady stmts
          (hbody.mono (by rw [Stmt.size_eq, hstmts, StmtKind.size]; omega))
      · exact checkStmt_steady body hbody
    · exact .of_plain (.modify (fun _ _ => rfl) (fun _ => rfl) (fun _ => rfl))
    · refine .get_bind (fun _ _ => rfl) fun s => ?_
      split
      · exact (fmt_plain _).bind fun _ => report_plain _
      · exact .pure _
  · exact .pure _

end Stmts

/-! ## The passes -/

/-- The three passes keep a ready state: binding the type names adds type declarations of the
module, checking the declarations queues bodies of its functions, and each queued body has its
own nodes to spend. -/
theorem passes_steady (m : Module) (h : 8 * m.size + 5 ≤ n) : Steady m.decls n (passes m) := by
  unfold passes
  refine (Steady.forIn fun d hd _ => (bindGlobalType_steady hd).bind fun _ => .pure _).bind
    fun _ => (Steady.forIn fun d hd _ => (checkDecl_steady hd h).bind fun _ => .pure _).bind
      fun _ => .get_bind_at (fun _ _ => rfl) fun s hs => ?_
  rw [← Array.forIn_toList]
  refine ((Steady.forIn fun p hp _ => ?_).bind fun _ => .of_plain layoutAll_plain) s hs
  obtain ⟨hd, hk⟩ := hs.pending p hp
  exact (checkBody_steady p.1 p.2 (fits_decl hd hk h)).bind fun _ => .pure _

end Check

/-- The budget of a module of at most `nodeCount` nodes never runs out: checking with the
budget of any larger count ends in the same state, but for the budget itself. -/
theorem Module.check_budget_suffices (m : Module) {nodeCount nodeCount' : Nat}
    (h : m.size ≤ nodeCount) (hle : nodeCount ≤ nodeCount') :
    m.check nodeCount' = { m.check nodeCount with budget := Check.budgetFor nodeCount' } := by
  have hn : 8 * m.size + 5 ≤ Check.budgetFor nodeCount := by
    unfold Check.budgetFor
    omega
  have hready : Check.Ready m.decls (Check.budgetFor nodeCount) { budget := Check.budgetFor nodeCount } :=
    ⟨fun k d st hk => by simp at hk, rfl, by simp⟩
  have hrun := (Check.passes_steady m hn _ hready).oblivious (Check.budgetFor nodeCount')
    (by unfold Check.budgetFor; omega)
  exact congrArg Prod.snd hrun

/-- A module whose struct points to itself and whose variable has that struct's type, at one
node more than the parse made. -/
theorem Module.check_budget_suffices_selfPointer :
    let parsed := parse (lex "struct S { next: *S }; var x: S;" false).tokens
    parsed.module.size ≤ parsed.nodeCount ∧
      parsed.module.check (parsed.nodeCount + 1) =
        { parsed.module.check parsed.nodeCount with
          budget := Check.budgetFor (parsed.nodeCount + 1) } :=
  have h : (parse (lex "struct S { next: *S }; var x: S;" false).tokens).module.size ≤
      (parse (lex "struct S { next: *S }; var x: S;" false).tokens).nodeCount := by
    decide +kernel
  ⟨h, Module.check_budget_suffices _ h (Nat.le_succ _)⟩

end SolarFront
