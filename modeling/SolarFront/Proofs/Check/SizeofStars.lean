import SolarFront.Proofs.Check.BudgetPasses
import SolarFront.Proofs.Check.BudgetTyping
import SolarFront.Proofs.Check.FoldSteps
import SolarFront.Proofs.Check.Typing
import SolarFront.Proofs.Typing.Interning

/-!
# `sizeof` of a type name under stars

The parser reads `sizeof` followed by stars and a name as an expression: dereferences around a
name (`Expr.derefs`), since a name may be a variable. When the name is a type, the checker does
not type the stars as dereferences: it measures the pointer type they spell, recording each star
with the type it makes. A type node spelled the same way (`TypeExpr.pointers`) is resolved by
the type path instead.

The main statement, `Check.sizeof_stars_typed_as_pointer_type`, says that the two paths agree
for every depth and every type name whose type is not the error type: the same type, the same
state apart from the tables of expression and type-node types (the same pool, folded values and
diagnostics), and each star recorded with the type its pointer node resolves to. So `sizeof` of
a name under one star or more is a 16-bit 4, and of a bare name measures its type.

The expression path binds the name before it resolves the type the name stands for, as a name
expression; the statement runs the type path from the state with that binding, the one
difference between the paths before the type is resolved. The comparison goes level by level:
both paths resolve the name's type with the same fuel and from the same state, and then make the
same pointers, each recording its node in its own table. The steps between (making a pointer,
measuring a type) never read those tables (`Check.TableBlind`). The expression path spends one
call less on the name, so the type path runs with one unit of fuel more; with the module's
budget both runs have enough fuel (`Check.Settled`), which puts the two at the same budget.
-/

set_option autoImplicit false
set_option linter.all false

namespace SolarFront

/-- The operand `*…*e` of `sizeof`: one dereference node per star, the outermost first, each
given by its identifier and span. -/
def Expr.derefs : List (Nat × Span) → Expr → Expr
  | [], e => e
  | (id, span) :: rest, e => .mk id span (.deref (derefs rest e))

/-- The type `*…*t`: one pointer node per star, the outermost first, each given by its
identifier, span and `volatile` mark. -/
def TypeExpr.pointers : List (Nat × Span × Bool) → TypeExpr → TypeExpr
  | [], t => t
  | (id, span, v) :: rest, t => .mk id span v (.array (pointers rest t) none)

theorem Expr.size_derefs (ds : List (Nat × Span)) (e : Expr) :
    (Expr.derefs ds e).size = ds.length + e.size := by
  induction ds with
  | nil => simp [Expr.derefs]
  | cons d ds ih =>
    obtain ⟨id, span⟩ := d
    simp only [Expr.derefs, Expr.size, ExprKind.size, ih, List.length_cons]
    omega

theorem TypeExpr.size_pointers (ps : List (Nat × Span × Bool)) (t : TypeExpr) :
    (TypeExpr.pointers ps t).size = ps.length + t.size := by
  induction ps with
  | nil => simp [TypeExpr.pointers]
  | cons p ps ih =>
    obtain ⟨id, span, v⟩ := p
    simp only [TypeExpr.pointers, TypeExpr.size, TypeExprKind.size, ih, List.length_cons]
    omega

namespace TypePool

/-- `u` is the `k`-fold pointer to `t` in the pool. -/
def PointsTo (p : TypePool) : Nat → TypeId → TypeId → Prop
  | 0, t, u => u = t
  | k + 1, t, u => ∃ v, p.get u = .array v none ∧ p.PointsTo k t v

/-- A pool that keeps a well-formed one keeps its pointer towers. -/
theorem PointsTo.keeps {p q : TypePool} (wf : p.WellFormed) (hk : p.Keeps q) {t : TypeId} :
    ∀ {k : Nat} {u : TypeId}, p.PointsTo k t u → p.Has u → q.PointsTo k t u := by
  intro k
  induction k with
  | zero => exact fun h _ => h
  | succ k ih =>
    intro u h hu
    obtain ⟨v, hget, hv⟩ := h
    exact ⟨v, (hk.get_eq u hu).trans hget, ih hv (wf.has_of_get_array hget)⟩

/-- A pointer made in a well-formed pool is not the error type. -/
theorem WellFormed.pointer_ne_error {p : TypePool} (wf : p.WellFormed) {t : TypeId}
    (ht : p.Has t) : (p.pointer t).2 ≠ .error := by
  intro h
  have hwf := (wf.intern (d := .array t none) (by simpa [TypeData.parts] using ht)
    (fun _ => by simp)).2.1
  have hget := intern_get p (.array t none)
  have hbase : (p.intern (.array t none)).1.get .error = .error := hwf.base TypeId.error (by decide)
  unfold pointer at h
  rw [h, hget] at *
  cases hbase

/-- A pointer is four bytes. -/
theorem sizeAlign_of_get_pointer {p : TypePool} {t e : TypeId} (h : p.get t = .array e none) :
    p.sizeAlign t = some (pointerSize, pointerSize) := by
  rw [sizeAlign.eq_1, h]

/-- `void` has no size. -/
theorem WellFormed.sizeAlign_void {p : TypePool} (wf : p.WellFormed) :
    p.sizeAlign .void = none := by
  rw [sizeAlign.eq_1, wf.base _ (by decide)]
  rfl

end TypePool

namespace CheckState

/-- The state with other tables of expression and type-node types. -/
def withTables (s : CheckState) (exprTypes typeNodes : Std.TreeMap Nat TypeId) : CheckState :=
  { s with exprTypes, typeNodes }

/-- The state with a name node bound to a symbol. -/
def bindName (s : CheckState) (id sym : Nat) : CheckState :=
  { s with bindings := s.bindings.insert id sym }

@[simp] theorem budget_bindName (s : CheckState) (id sym : Nat) :
    (s.bindName id sym).budget = s.budget := rfl

@[simp] theorem withTables_self (s : CheckState) : s.withTables s.exprTypes s.typeNodes = s := rfl

@[simp] theorem withTables_withTables (s : CheckState) (e n e' n' : Std.TreeMap Nat TypeId) :
    (s.withTables e n).withTables e' n' = s.withTables e' n' := rfl

end CheckState

namespace Check

open CheckM CheckState

variable {α β : Type}

/-! ## Steps blind to the tables of node types -/

/-- A step that neither reads nor writes the tables of expression and type-node types. -/
def TableBlind (x : CheckM α) : Prop :=
  ∀ s e n, x.run (s.withTables e n) = ((x.run s).1, (x.run s).2.withTables e n)

namespace TableBlind

variable {x : CheckM α} {k : α → CheckM β}

theorem pure (a : α) : TableBlind (Pure.pure a : CheckM α) := fun _ _ _ => rfl

theorem bind (hx : TableBlind x) (hk : ∀ a, TableBlind (k a)) : TableBlind (x >>= k) :=
  fun s e n => by rw [run_bind, run_bind, hx s e n, hk _ _ e n]

theorem map (f : α → β) (hx : TableBlind x) : TableBlind (f <$> x) :=
  hx.bind fun _ => pure _

theorem discard (hx : TableBlind x) : TableBlind (Functor.discard x) := hx.map _

/-- A step blind to the tables leaves them as they were. -/
theorem tables_eq (hx : TableBlind x) (s : CheckState) :
    (x.run s).2.exprTypes = s.exprTypes ∧ (x.run s).2.typeNodes = s.typeNodes := by
  have h := hx s s.exprTypes s.typeNodes
  rw [withTables_self] at h
  exact ⟨congrArg (fun p => p.2.exprTypes) h, congrArg (fun p => p.2.typeNodes) h⟩

/-- A step that reads the state first: what it reads cannot be the tables. -/
theorem get_bind {k : CheckState → CheckM α} (hk : ∀ s e n, k (s.withTables e n) = k s)
    (hk' : ∀ s, TableBlind (k s)) : TableBlind (get >>= k) := fun s e n => by
  rw [run_bind, run_bind]
  exact (hk s e n).symm ▸ hk' s s e n

/-- An update of fields other than the tables. -/
theorem modify {f : CheckState → CheckState}
    (hf : ∀ s e n, f (s.withTables e n) = (f s).withTables e n) :
    TableBlind (MonadState.modifyGet fun s => ((), f s) : CheckM Unit) :=
  fun s e n => by
    show ((), f (s.withTables e n)) = ((), (f s).withTables e n)
    rw [hf]

end TableBlind

theorem report_tableBlind (d : Diagnostic) : TableBlind (report d) :=
  .modify fun _ _ _ => rfl

theorem withPool_tableBlind (f : TypePool → TypePool × TypeId) : TableBlind (withPool f) :=
  fun _ _ _ => rfl

theorem setLayout_tableBlind (rid : Nat) (state : LayoutState) :
    TableBlind (setLayout rid state) :=
  .modify fun _ _ _ => rfl

theorem typeData_tableBlind (t : TypeId) : TableBlind (typeData t) :=
  .get_bind (fun _ _ _ => rfl) fun _ => .pure _

/-- The layout engine reads and writes the pool and the diagnostics only. -/
theorem layout_tableBlind (fuel : Nat) :
    (∀ t, TableBlind (sizeAlignOf fuel t)) ∧ (∀ rid, TableBlind (ensureLayout fuel rid)) ∧
      ∀ ms, TableBlind (shapeMembers fuel ms) := by
  induction fuel with
  | zero => exact ⟨fun _ => .pure _, fun _ => .pure _, fun _ => .pure _⟩
  | succ fuel ih =>
    obtain ⟨hsize, hensure, hshape⟩ := ih
    refine ⟨fun t => ?_, fun rid => ?_, fun ms => ?_⟩
    · unfold sizeAlignOf
      refine .get_bind (fun _ _ _ => rfl) fun s => ?_
      -- the record of `t` is laid out first; what follows is a join point of the definition
      extract_lets rest
      have hrest : ∀ u, TableBlind (rest u) := fun u => by
        dsimp only [rest]
        refine (typeData_tableBlind t).bind fun d => ?_
        split
        · exact (hsize _).bind fun _ => .pure _
        · exact .get_bind (fun _ _ _ => rfl) fun _ => .pure _
      split
      · exact (hensure _).discard.bind hrest
      · exact hrest ()
    · unfold ensureLayout
      refine .get_bind (fun _ _ _ => rfl) fun s => ?_
      dsimp only
      split
      · exact .pure _
      · exact .pure _
      · exact (report_tableBlind _).bind fun _ => (setLayout_tableBlind _ _).bind fun _ => .pure _
      · refine (setLayout_tableBlind _ _).bind fun _ => (hshape _).bind fun r => ?_
        refine .get_bind (fun _ _ _ => rfl) fun s' => ?_
        split
        · exact (setLayout_tableBlind _ _).bind fun _ => .pure _
        · exact (setLayout_tableBlind _ _).bind fun _ => .pure _
    · cases ms with
      | nil => exact .pure _
      | cons m ms =>
        unfold shapeMembers
        dsimp only
        split
        all_goals
          refine .bind ?_ fun _ => (hshape ms).bind fun _ => ?_
          · first
            | exact .pure _
            | exact hsize _
          · split <;> exact .pure _

theorem sizeAlign_tableBlind (t : TypeId) : TableBlind (sizeAlign t) :=
  (TableBlind.get_bind (fun _ _ _ => rfl) fun _ => .pure _).bind fun fuel =>
    (layout_tableBlind fuel).1 t

theorem sizeofResult_tableBlind (id : Nat) (ty : TypeId) (span : Span) :
    TableBlind (sizeofResult id ty span) := by
  unfold sizeofResult
  split
  · exact .pure _
  refine (sizeAlign_tableBlind _).bind fun r => ?_
  dsimp only
  split
  · refine .bind ?_ fun _ => .pure _
    exact .modify fun _ _ _ => rfl
  · split
    · exact (report_tableBlind _).bind fun _ => .pure _
    · exact .pure _

/-! ## One star at a time -/

section Levels

variable {s t s₁ : CheckState} {name : String} {sym g f : Nat} {R : TypeId}

/-- The expression path at the name: it binds the name, resolves the type the name stands for
and records it as the name's type. -/
theorem sizeofTypeOperand_name_run (nameId : Nat) (nameSpan : Span)
    (hres : s.scopes.resolve name = some sym) (hkind : (s.scopes.symbol sym).kind = .type)
    (hR : (typeSymbolType g sym).run (s.bindName nameId sym) = (R, t)) :
    (sizeofTypeOperand (g + 1) (.mk nameId nameSpan (.name name))).run s =
      (some R, t.withTables (t.exprTypes.insert nameId R) t.typeNodes) := by
  simp only [bindName] at hR
  simp [sizeofTypeOperand, hres, symbol, hkind, CheckM.bind, setExprType, hR, withTables]
  rfl

/-- The type path at the name: it resolves the type the name stands for and records it as the
node's type. -/
theorem resolveType_ref_run (refId : Nat) (refSpan : Span) (vol : Bool)
    (hres : s.scopes.resolve name = some sym) (hkind : (s.scopes.symbol sym).kind = .type)
    (hR : (typeSymbolType g sym).run s = (R, t)) :
    (resolveType (g + 2) (.mk refId refSpan vol (.ref name))).run s =
      (R, t.withTables t.exprTypes (t.typeNodes.insert refId R)) := by
  simp [resolveType, resolveTypeName, hres, symbol, hkind, setTypeNode, hR, withTables,
    TypeExpr.kind, TypeExpr.id]
  rfl

/-- A star on the expression path: the pointer to what is inside, recorded as the star's type. -/
theorem sizeofTypeOperand_deref_run (id : Nat) (span : Span) {inner : Expr} {target : TypeId}
    (hinner : (sizeofTypeOperand f inner).run s = (some target, s₁))
    (htarget : target ≠ .error) :
    (sizeofTypeOperand (f + 1) (.mk id span (.deref inner))).run s =
      (some (s₁.pool.pointer target).2,
        { s₁ with pool := (s₁.pool.pointer target).1 }.withTables
          (s₁.exprTypes.insert id (s₁.pool.pointer target).2) s₁.typeNodes) := by
  simp only [sizeofTypeOperand]
  rw [run_bind, hinner]
  simp [htarget, pointer, withPool, setExprType, withTables]
  rfl

/-- A star on the type path: the pointer to what is inside, recorded as the node's type. -/
theorem resolveType_pointer_run (id : Nat) (span : Span) (vol : Bool) {inner : TypeExpr}
    {elem : TypeId} (hinner : (resolveType f inner).run s = (elem, s₁)) :
    (resolveType (f + 1) (.mk id span vol (.array inner none))).run s =
      ((s₁.pool.pointer elem).2,
        { s₁ with pool := (s₁.pool.pointer elem).1 }.withTables s₁.exprTypes
          (s₁.typeNodes.insert id (s₁.pool.pointer elem).2)) := by
  simp only [resolveType, TypeExpr.kind, TypeExpr.id]
  rw [run_bind, run_bind, hinner]
  simp [pointer, withPool, setTypeNode, withTables]
  rfl

end Levels

/-! ## The tower of stars -/

/-- Where the two paths stand after the same stars over a name of type `R`: the expression path
in `sA` with the type `u`, the type path in `sB` with the same type. The states differ in their
tables only, and the stars reported nothing since the name's type was resolved into `t`; `u` is
the `k`-fold pointer to `R`; the name and each star (paired with its pointer
node) are recorded with the type of the corresponding type node. -/
structure Tower (R : TypeId) (t : CheckState) (k nameId refId : Nat)
    (pairs : List ((Nat × Span) × (Nat × Span × Bool))) (u : TypeId) (sA sB : CheckState) :
    Prop where
  tables : sA = sB.withTables sA.exprTypes sA.typeNodes
  quiet : sB.diagnostics = t.diagnostics
  wf : sA.pool.WellFormed
  has : sA.pool.Has u
  ne_error : u ≠ .error
  pointsTo : sA.pool.PointsTo k R u
  name : sA.exprTypes[nameId]? = some R
  ref : sB.typeNodes[refId]? = some R
  stars : ∀ dp ∈ pairs, ∃ v, sA.exprTypes[dp.1.1]? = some v ∧ sB.typeNodes[dp.2.1]? = some v

/-- Both paths through the stars, from the type `R` the name stands for. The expression path at
fuel `g + k + 1` and the type path at `g + k + 2` resolve the name with the same fuel `g`. -/
theorem stars_run {s t : CheckState} {name : String} {sym g : Nat} {R : TypeId}
    (nameId : Nat) (nameSpan : Span) (refId : Nat) (refSpan : Span) (vol : Bool)
    (hres : s.scopes.resolve name = some sym) (hkind : (s.scopes.symbol sym).kind = .type)
    (hR : (typeSymbolType g sym).run (s.bindName nameId sym) = (R, t)) (hRe : R ≠ .error)
    (hwf : t.pool.WellFormed) (hRhas : t.pool.Has R) :
    ∀ (ds : List (Nat × Span)) (ps : List (Nat × Span × Bool)), ds.length = ps.length →
      (nameId :: ds.map (·.1)).Nodup → (refId :: ps.map (·.1)).Nodup →
      ∃ u sA sB,
        (sizeofTypeOperand (g + ds.length + 1)
            (Expr.derefs ds (.mk nameId nameSpan (.name name)))).run s = (some u, sA) ∧
        (resolveType (g + ps.length + 2)
            (TypeExpr.pointers ps (.mk refId refSpan vol (.ref name)))).run
          (s.bindName nameId sym) = (u, sB) ∧
        Tower R t ds.length nameId refId (ds.zip ps) u sA sB := by
  intro ds
  induction ds with
  | nil =>
    intro ps hlen _ _
    obtain rfl := List.length_eq_zero_iff.1 hlen.symm
    refine ⟨R, _, _, sizeofTypeOperand_name_run nameId nameSpan hres hkind hR,
      resolveType_ref_run refId refSpan vol hres hkind hR, ⟨rfl, rfl, hwf, hRhas, hRe, rfl, ?_, ?_,
      by simp⟩⟩
    · simp [withTables]
    · simp [withTables]
  | cons d ds ih =>
    intro ps hlen hnA hnB
    obtain ⟨p, ps, rfl⟩ := List.exists_cons_of_length_eq_add_one hlen.symm
    -- the identifiers of the stars outside are not those inside
    have hdA : d.1 ∉ nameId :: ds.map (·.1) := by
      intro h
      simp only [List.map_cons, List.nodup_cons, List.mem_cons] at hnA h
      rcases h with h | h <;> simp_all
    have hdB : p.1 ∉ refId :: ps.map (·.1) := by
      intro h
      simp only [List.map_cons, List.nodup_cons, List.mem_cons] at hnB h
      rcases h with h | h <;> simp_all
    obtain ⟨u, sA, sB, hA, hB, tw⟩ := ih ps (by simpa using hlen)
      (List.nodup_cons.2 ⟨by simp_all, (List.nodup_cons.1 (List.nodup_cons.1 hnA).2).2⟩)
      (List.nodup_cons.2 ⟨by simp_all, (List.nodup_cons.1 (List.nodup_cons.1 hnB).2).2⟩)
    have hpool : sB.pool = sA.pool := by rw [tw.tables]; rfl
    obtain ⟨hext, hwf', -, hhas'⟩ := tw.wf.intern (d := .array u none)
      (by simpa [TypeData.parts] using tw.has) (fun _ => by simp)
    obtain ⟨id, span⟩ := d
    obtain ⟨pid, pspan, pvol⟩ := p
    simp only [List.mem_cons, List.mem_map, not_or, not_exists, not_and] at hdA hdB
    refine ⟨(sA.pool.pointer u).2, _, _,
      sizeofTypeOperand_deref_run id span hA tw.ne_error,
      (resolveType_pointer_run pid pspan pvol hB).trans (by rw [hpool]), ⟨?_, ?_, hwf', hhas',
      tw.wf.pointer_ne_error tw.has,
      ⟨u, TypePool.intern_get _ _, tw.pointsTo.keeps tw.wf hext.toKeeps tw.has⟩, ?_, ?_, ?_⟩⟩
    · rw [tw.tables]
      rfl
    · exact tw.quiet
    · simpa [withTables, Std.TreeMap.getElem?_insert, hdA.1] using tw.name
    · simpa [withTables, Std.TreeMap.getElem?_insert, hdB.1] using tw.ref
    · -- the new star is recorded with the new pointer, and those inside keep their types
      rintro ⟨d', p'⟩ hdp
      simp only [List.zip_cons_cons, List.mem_cons, Prod.mk.injEq] at hdp
      rcases hdp with ⟨rfl, rfl⟩ | hdp
      · exact ⟨(sA.pool.pointer u).2, by simp [withTables], by simp [withTables]⟩
      · obtain ⟨v, hvA, hvB⟩ := tw.stars _ hdp
        have hne : d'.1 ≠ id := fun h => hdA.2 d' (List.of_mem_zip hdp).1 h
        have hne' : p'.1 ≠ pid := fun h => hdB.2 p' (List.of_mem_zip hdp).2 h
        exact ⟨v, by simpa [withTables, Std.TreeMap.getElem?_insert, Ne.symm hne] using hvA,
          by simpa [withTables, Std.TreeMap.getElem?_insert, Ne.symm hne'] using hvB⟩

/-! ## Measuring the type -/

/-- The engine measures `void` with one look at the pool: nothing to lay out, and no size. -/
theorem sizeAlign_void_run {s : CheckState} (wf : s.pool.WellFormed) :
    (sizeAlign .void).run s = (none, s) := by
  have hget : s.pool.get .void = .void := wf.base _ (by decide)
  -- the engine's fuel counts the records at least twice, so it is never zero
  obtain ⟨fuel, hfuel⟩ : ∃ fuel, 2 * (s.pool.records.size + 1) *
      (s.pool.types.size + s.pool.records.foldl (fun n r => n + r.members.length) 0 + 2) =
        fuel + 1 :=
    ⟨_, (Nat.succ_pred_eq_of_pos (by positivity)).symm⟩
  show (sizeAlignOf (2 * (s.pool.records.size + 1) *
      (s.pool.types.size + s.pool.records.foldl (fun n r => n + r.members.length) 0 + 2))
        .void).run s = (none, s)
  rw [hfuel]
  simp [sizeAlignOf, TypePool.recordOf?, hget, typeData, wf.sizeAlign_void]
  rfl

/-- `sizeof` of a type other than the error type, from a sound state: a 16-bit constant of the
size the engine finds for the type, if it finds one; the error type otherwise, reported for
`void`. -/
theorem sizeofResult_run {s s' : CheckState} {ty r : TypeId} (id : Nat) (span : Span)
    (hs : s.Sound) (hty : s.pool.Has ty) (hne : ty ≠ .error)
    (h : (sizeofResult id ty span).run s = (r, s')) :
    s.Grows s' ∧
      (∀ size align, s'.pool.sizeAlign ty = some (size, align) →
        r = .int16 ∧ s'.consts[id]? = some (Width.w16.truncate size)) ∧
      (s'.pool.sizeAlign ty = none → r = .error) ∧
      (ty = .void → ∃ d, s'.diagnostics = s.diagnostics.push d ∧ d.code = .e3005) := by
  obtain ⟨-, hg, -⟩ := Runs.of_triple (sizeofResult_spec s id ty span) h ⟨.refl _, hs, hty⟩
  have hne' : ty.isError = false := Bool.eq_false_iff.2 fun h => hne (TypePool.TypeId.isError_iff.1 h)
  simp only [sizeofResult, hne', Bool.false_eq_true, ↓reduceIte] at h
  obtain ⟨sz, s₁, hsz, h⟩ := Runs.of_bind h
  obtain ⟨hs₁, -, rfl, -⟩ := Runs.of_triple (sizeAlign_spec s ty) hsz ⟨.refl _, hs, hty⟩
  refine ⟨hg, ?_⟩
  cases hx : s₁.pool.sizeAlign ty with
  | some x =>
    -- a size: the constant is folded
    obtain ⟨size, align⟩ := x
    rw [hx] at h
    obtain ⟨_, s₂, h₂, h⟩ := Runs.of_bind h
    obtain ⟨rfl, rfl⟩ := Runs.of_pure h
    obtain rfl : s₂ = { s₁ with consts := s₁.consts.insert id (Width.w16.truncate size) } :=
      (congrArg Prod.snd h₂).symm
    refine ⟨fun size' align' h' => ?_, fun h' => ?_, fun hv => ?_⟩
    · obtain ⟨rfl, -⟩ : size = size' ∧ align = align' := by simpa [hx] using h'
      simp
    · simp [hx] at h'
    · rw [hv, hs₁.wf.sizeAlign_void] at hx
      cases hx
  | none =>
    rw [hx] at h
    by_cases hv : ty = .void
    · -- `void`: measuring it changed nothing, and it is reported
      subst hv
      obtain rfl : s = s₁ := congrArg Prod.snd ((sizeAlign_void_run hs.wf).symm.trans hsz)
      obtain ⟨_, s₂, h₂, h⟩ := Runs.of_bind h
      obtain ⟨rfl, rfl⟩ := Runs.of_pure h
      obtain rfl : s₂ = { s with
          diagnostics := s.diagnostics.push (Diagnostic.spanned .e3005 span _) } :=
        (congrArg Prod.snd h₂).symm
      exact ⟨fun size align h' => by simp [hx] at h', fun _ => rfl, fun _ => ⟨_, rfl, rfl⟩⟩
    · have hv' : ty.isVoid = false := by
        cases ty
        simp_all [TypeId.isVoid, TypeId.void]
      simp only [hv', Bool.false_eq_true, ↓reduceIte] at h
      obtain ⟨rfl, rfl⟩ := Runs.of_pure h
      exact ⟨fun size align h' => by simp [hx] at h', fun _ => rfl, fun h' => absurd h' hv⟩

/-! ## The whole `sizeof` -/

/-- `sizeof` of an operand that reads as a type measures that type. -/
theorem inferExpr_sizeofExpr_run {s s₁ : CheckState} {f : Nat} (id : Nat) (span : Span)
    {operand : Expr} {ty : TypeId} (h : (sizeofTypeOperand f operand).run s = (some ty, s₁)) :
    (inferExpr (f + 1) (.mk id span (.sizeofExpr operand))).run s =
      (sizeofResult id ty span).run s₁ := by
  simp only [inferExpr]
  rw [run_bind, h]
  rfl

/-- `sizeof` of a type node measures the type it resolves to. -/
theorem inferExpr_sizeofType_run {s s₁ : CheckState} {f : Nat} (id : Nat) (span : Span)
    {t : TypeExpr} {ty : TypeId} (h : (resolveType f t).run s = (ty, s₁)) :
    (inferExpr (f + 1) (.mk id span (.sizeofType t))).run s = (sizeofResult id ty span).run s₁ := by
  simp only [inferExpr]
  rw [run_bind, h]

/-- Typing an expression records the type inferred for it. -/
theorem checkExpr_run {s s₁ : CheckState} {f : Nat} {e : Expr} {ty : TypeId}
    (h : (inferExpr f e).run s = (ty, s₁)) :
    (checkExpr (f + 1) e).run s = (ty, s₁.withTables (s₁.exprTypes.insert e.id ty) s₁.typeNodes) := by
  simp only [checkExpr]
  rw [run_bind, h]
  rfl

/-- What `sizeof` of `k` stars over a name of type `R` gives on the expression path (`A`) and on
the type path (`B`), the name's type having been resolved into the state `t`. The two give the
same type and leave the same state but for their tables; the name and each star (paired with
its pointer node) are recorded with the type of the corresponding type node; under a star the
size is the pointer's four bytes, and without one it is the size of `R` as the layout engine
finds it, `void` being reported. -/
structure SizeofAgree (R : TypeId) (t : CheckState) (k nameId refId id : Nat)
    (pairs : List ((Nat × Span) × (Nat × Span × Bool))) (A B : TypeId × CheckState) : Prop where
  type : A.1 = B.1
  state : A.2 = B.2.withTables A.2.exprTypes A.2.typeNodes
  name : A.2.exprTypes[nameId]? = some R
  ref : B.2.typeNodes[refId]? = some R
  stars : ∀ dp ∈ pairs, ∃ v, A.2.exprTypes[dp.1.1]? = some v ∧ B.2.typeNodes[dp.2.1]? = some v
  pointer : 0 < k → A.1 = .int16 ∧ A.2.consts[id]? = some 4
  sized : k = 0 → ∀ size align, A.2.pool.sizeAlign R = some (size, align) →
    A.1 = .int16 ∧ A.2.consts[id]? = some (Width.w16.truncate size)
  unsized : k = 0 → A.2.pool.sizeAlign R = none → A.1 = .error
  void : k = 0 → R = .void → ∃ d, A.2.diagnostics = t.diagnostics.push d ∧ d.code = .e3005

/-- The two paths at exact fuels: the expression path at `g + k + 3` and the type path at
`g + k + 4` resolve the name with the same fuel `g`, from a sound state. -/
theorem sizeof_stars_run {s t : CheckState} {name : String} {sym g : Nat} {R : TypeId}
    (id : Nat) (span : Span) (nameId : Nat) (nameSpan : Span) (refId : Nat) (refSpan : Span)
    (vol : Bool) (ds : List (Nat × Span)) (ps : List (Nat × Span × Bool)) (hs : s.Sound)
    (hres : s.scopes.resolve name = some sym) (hkind : (s.scopes.symbol sym).kind = .type)
    (hR : (typeSymbolType g sym).run (s.bindName nameId sym) = (R, t)) (hRe : R ≠ .error)
    (hlen : ds.length = ps.length) (hnA : (id :: nameId :: ds.map (·.1)).Nodup)
    (hnB : (refId :: ps.map (·.1)).Nodup) :
    SizeofAgree R t ds.length nameId refId id (ds.zip ps)
      ((checkExpr (g + ds.length + 3)
        (.mk id span (.sizeofExpr (Expr.derefs ds (.mk nameId nameSpan (.name name)))))).run s)
      ((checkExpr (g + ps.length + 4) (.mk id span
        (.sizeofType (TypeExpr.pointers ps (.mk refId refSpan vol (.ref name)))))).run
          (s.bindName nameId sym)) := by
  have hsB : (s.bindName nameId sym).Sound := ⟨hs.wf, hs.layout, hs.symbols⟩
  obtain ⟨ht, -, hRhas⟩ := Runs.of_triple ((typingSound g).symbolType sym _) hR ⟨.refl _, hsB⟩
  obtain ⟨hid, hnA'⟩ := List.nodup_cons.1 hnA
  simp only [List.mem_cons, List.mem_map, not_or, not_exists, not_and] at hid
  obtain ⟨u, sA, sB, hA, hB, tw⟩ :=
    stars_run nameId nameSpan refId refSpan vol hres hkind hR hRe ht.wf hRhas ds ps hlen hnA' hnB
  obtain ⟨hsB', -, hu⟩ := Runs.of_triple ((typingSound _).type _ _) hB ⟨.refl _, hsB⟩
  -- the two paths measure the same type, from states that differ in their tables only
  obtain ⟨r, s', hm⟩ : ∃ r s', (sizeofResult id u span).run sB = (r, s') := ⟨_, _, rfl⟩
  have hmA := (congrArg (sizeofResult id u span).run tw.tables).trans
    (sizeofResult_tableBlind id u span sB _ _)
  rw [hm] at hmA
  have hnodes : s'.typeNodes = sB.typeNodes := by
    simpa [hm] using ((sizeofResult_tableBlind id u span).tables_eq sB).2
  obtain ⟨hg, hsized, hunsized, hvoid⟩ := sizeofResult_run id span hsB' hu tw.ne_error hm
  rw [checkExpr_run ((inferExpr_sizeofExpr_run id span hA).trans hmA),
    checkExpr_run ((inferExpr_sizeofType_run id span hB).trans hm)]
  refine ⟨rfl, rfl, ?_, ?_, ?_, fun hk => ?_, fun hk => ?_, fun hk => ?_, fun hk => ?_⟩
  · simpa [withTables, Expr.id, Std.TreeMap.getElem?_insert, hid.1] using tw.name
  · simpa [withTables, hnodes] using tw.ref
  · intro dp hdp
    obtain ⟨v, hvA, hvB⟩ := tw.stars dp hdp
    have hne : dp.1.1 ≠ id := fun h => hid.2 dp.1 (List.of_mem_zip hdp).1 h
    exact ⟨v, by simpa [withTables, Expr.id, Std.TreeMap.getElem?_insert, Ne.symm hne] using hvA,
      by simpa [withTables, hnodes] using hvB⟩
  · -- under a star the type measured is a pointer, kept as the engine grows the pool
    obtain ⟨k, hk'⟩ := Nat.exists_eq_add_one_of_ne_zero (Nat.pos_iff_ne_zero.1 hk)
    have hp := tw.pointsTo
    rw [hk'] at hp
    obtain ⟨v, hv, -⟩ := hp
    have hpool : sB.pool = sA.pool := by rw [tw.tables]; rfl
    have hget : s'.pool.get u = .array v none := by
      rw [hg.pool.toKeeps.get_eq u hu, hpool, hv]
    obtain ⟨rfl, hc⟩ := hsized _ _ (TypePool.sizeAlign_of_get_pointer hget)
    exact ⟨rfl, hc⟩
  · have hp := tw.pointsTo
    rw [hk] at hp
    obtain rfl : u = R := hp
    exact hsized
  · have hp := tw.pointsTo
    rw [hk] at hp
    obtain rfl : u = R := hp
    exact hunsized
  · intro hv
    have hp := tw.pointsTo
    rw [hk] at hp
    obtain rfl : u = R := hp
    rw [← tw.quiet]
    exact hvoid hv

/-! ## With the module's budget -/

/-- A typing function run with the budget does what it does at any fuel `n` up to the budget
that covers its node and the type declarations still unresolved. -/
theorem run_budget_eq {f : Nat → CheckM α} {ds : List Decl} {ℓ n : Nat}
    (hf : ∀ m, n ≤ m → Sim ds n ℓ (f m) (f n)) {s : CheckState} (hs : s.TypeDeclsFrom ds)
    (hb : 8 * s.unresolvedSize ds + ℓ ≤ n) (hn : n ≤ s.budget) :
    (f s.budget).run s = (f n).run s := by
  have h₁ := (hf s.budget hn s hs hb).oblivious s.budget
  have h₂ := (hf n le_rfl s hs hb).oblivious s.budget
  rw [withBudget_budget] at h₁ h₂
  exact h₁.trans h₂.symm

/-- `sizeof` of stars over a type name is typed as `sizeof` of the pointer type they spell over
that name, with the module's budget, from a sound state whose budget covers the expression: the
same type and the same state apart from the tables of node types, the name and each star
recorded with the type of its type node, four bytes under a star and the size of the name's
type `R` without one, `void` reported. The type path runs from the state in which the name node
is bound, as the expression path binds it first; `R` is the type the name stands for there. -/
theorem sizeof_stars_typed_as_pointer_type {ds : List Decl} {s t : CheckState} {name : String}
    {sym : Nat} {R : TypeId} (id : Nat) (span : Span) (nameId : Nat) (nameSpan : Span)
    (refId : Nat) (refSpan : Span) (vol : Bool) (stars : List (Nat × Span))
    (ptrs : List (Nat × Span × Bool)) (hs : s.Sound) (hdecls : s.TypeDeclsFrom ds)
    (hfits : Fits ds s.budget (stars.length + 2))
    (hres : s.scopes.resolve name = some sym) (hkind : (s.scopes.symbol sym).kind = .type)
    (hR : (typeSymbolType s.budget sym).run (s.bindName nameId sym) = (R, t)) (hRe : R ≠ .error)
    (hlen : stars.length = ptrs.length) (hnA : (id :: nameId :: stars.map (·.1)).Nodup)
    (hnB : (refId :: ptrs.map (·.1)).Nodup) :
    SizeofAgree R t stars.length nameId refId id (stars.zip ptrs)
      ((typeOfExpr (.mk id span
        (.sizeofExpr (Expr.derefs stars (.mk nameId nameSpan (.name name)))))).run s)
      ((typeOfExpr (.mk id span
        (.sizeofType (TypeExpr.pointers ptrs (.mk refId refSpan vol (.ref name)))))).run
          (s.bindName nameId sym)) := by
  have hroom := s.unresolvedSize_le_typeSize ds
  have hfits' : 8 * ((ds.map Decl.typeSize).sum + (stars.length + 2)) + 5 ≤ s.budget := hfits
  -- below the budget, fuel `g` for the name and one more per node above it
  obtain ⟨g, hg⟩ : ∃ g, s.budget = g + stars.length + 4 := ⟨s.budget - stars.length - 4, by omega⟩
  -- binding the name leaves the type declarations as they were
  have hdeclsB : (s.bindName nameId sym).TypeDeclsFrom ds := hdecls
  have hroomB : (s.bindName nameId sym).unresolvedSize ds = s.unresolvedSize ds := rfl
  have hR' : (typeSymbolType g sym).run (s.bindName nameId sym) = (R, t) :=
    (run_budget_eq (fun m hm => (settled ds g).symbolType sym m hm) hdeclsB
      (by omega) (show g ≤ s.budget by omega)).symm.trans hR
  have hsizeA : (Expr.mk id span
      (.sizeofExpr (Expr.derefs stars (.mk nameId nameSpan (.name name))))).size =
        stars.length + 2 := by
    simp [Expr.size, ExprKind.size, Expr.size_derefs]
  have hsizeB : (Expr.mk id span
      (.sizeofType (TypeExpr.pointers ptrs (.mk refId refSpan vol (.ref name))))).size =
        ptrs.length + 2 := by
    simp [Expr.size, ExprKind.size, TypeExpr.size_pointers, TypeExpr.size, TypeExprKind.size]
  have hA := run_budget_eq (fun m hm => (settled ds (g + stars.length + 3)).expr
    (.mk id span (.sizeofExpr (Expr.derefs stars (.mk nameId nameSpan (.name name))))) m hm)
    hdecls (by omega) (by omega)
  have hB := run_budget_eq (fun m hm => (settled ds (g + ptrs.length + 4)).expr
    (.mk id span (.sizeofType (TypeExpr.pointers ptrs (.mk refId refSpan vol (.ref name))))) m hm)
    hdeclsB (by omega) (show g + ptrs.length + 4 ≤ s.budget by omega)
  show SizeofAgree R t stars.length nameId refId id (stars.zip ptrs)
    ((checkExpr s.budget _).run s) ((checkExpr s.budget _).run (s.bindName nameId sym))
  rw [budget_bindName] at hB
  rw [hA, hB]
  exact sizeof_stars_run id span nameId nameSpan refId refSpan vol stars ptrs hs hres hkind hR' hRe
    hlen hnA hnB

/-- A module state with one type name `T` for `int16`, with nothing to resolve, and a budget
for a small module. -/
def typeNameState : CheckState :=
  { budget := 64
    scopes := { symbols := #[{ name := "T", kind := .type, ty := .int16, span := ⟨0, 1⟩ }]
                frames := [[("T", 0)]] } }

/-- `sizeof **T` and `sizeof (**T)` as a type, for `T` naming `int16`. -/
theorem sizeof_two_stars_typed_as_pointer_type :
    typeNameState.Sound ∧ typeNameState.TypeDeclsFrom [] ∧ Fits [] typeNameState.budget 4 ∧
    typeNameState.scopes.resolve "T" = some 0 ∧ (typeNameState.scopes.symbol 0).kind = .type ∧
    (typeSymbolType typeNameState.budget 0).run (typeNameState.bindName 3 0) =
      (.int16, typeNameState.bindName 3 0) ∧ TypeId.int16 ≠ .error ∧
    [(1, (⟨1, 2⟩ : Span)), (2, ⟨2, 3⟩)].length = [(10, (⟨1, 2⟩ : Span), false), (11, ⟨2, 3⟩, false)].length ∧
    [0, 3, 1, 2].Nodup ∧ [12, 10, 11].Nodup ∧
    SizeofAgree .int16 (typeNameState.bindName 3 0) 2 3 12 0
      ([(1, (⟨1, 2⟩ : Span)), (2, ⟨2, 3⟩)].zip [(10, (⟨1, 2⟩ : Span), false), (11, ⟨2, 3⟩, false)])
      ((typeOfExpr (.mk 0 ⟨0, 4⟩ (.sizeofExpr
        (Expr.derefs [(1, ⟨1, 2⟩), (2, ⟨2, 3⟩)] (.mk 3 ⟨3, 4⟩ (.name "T")))))).run typeNameState)
      ((typeOfExpr (.mk 0 ⟨0, 4⟩ (.sizeofType (TypeExpr.pointers
        [(10, ⟨1, 2⟩, false), (11, ⟨2, 3⟩, false)] (.mk 12 ⟨3, 4⟩ false (.ref "T")))))).run
          (typeNameState.bindName 3 0)) := by
  have hs : typeNameState.Sound :=
    { wf := TypePool.empty_wellFormed
      layout := TypePool.empty_layoutSound _
      symbols := fun i => by
        cases i with
        | zero => exact TypePool.empty_wellFormed.has_int16
        | succ i =>
          have h : typeNameState.scopes.symbol (i + 1) = default := by
            simp [typeNameState, ScopeStack.symbol]
          rw [h]
          exact TypePool.empty_wellFormed.has_void }
  have hdecls : typeNameState.TypeDeclsFrom [] := fun k d st h => by
    simp [typeNameState] at h
  have hfits : Fits [] typeNameState.budget 4 := by
    simp [Fits, typeNameState]
  have hres : typeNameState.scopes.resolve "T" = some 0 := by decide
  have hR : (typeSymbolType typeNameState.budget 0).run (typeNameState.bindName 3 0) =
      (.int16, typeNameState.bindName 3 0) := rfl
  exact ⟨hs, hdecls, hfits, hres, rfl, hR, by decide, rfl, by decide, by decide,
    sizeof_stars_typed_as_pointer_type 0 ⟨0, 4⟩ 3 ⟨3, 4⟩ 12 ⟨3, 4⟩ false
      [(1, ⟨1, 2⟩), (2, ⟨2, 3⟩)] [(10, ⟨1, 2⟩, false), (11, ⟨2, 3⟩, false)] hs hdecls hfits hres
      rfl hR (by decide) rfl (by decide) (by decide)⟩

end Check

end SolarFront
