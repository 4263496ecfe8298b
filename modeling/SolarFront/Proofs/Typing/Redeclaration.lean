import SolarFront.Proofs.Typing.ScopeRuns
import SolarFront.Proofs.Check.LayoutSound

/-!
# Declaring a name again in the same scope

A declaration of a name the innermost scope already binds is checked against the symbol it is
bound to, in a fixed order: a change of kind, or a repeated constant or type, is a redefinition;
then a disagreement of type (the error type agrees with every type) or of the `static` and
`inline` marks is a conflict; then two definitions are a redefinition. Otherwise the new
appearance merges into the old symbol, which keeps its span and first declaration, becomes
defined by the new appearance if that one defines it, and takes the new type if its own was the
error type (`ScopeStack.declare_of_bound`, `ScopeStack.symbol_declare_of_bound`).

A refused declaration changes nothing: the stack has no state to return, and both callers, a
run of scope operations and the checker, go on with the stack they had
(`ScopeStack.step_of_declare_error`, `Check.declareSymbol_of_declare_error`).

Over a run of declarations of one name in one scope, at most one accepted appearance defines the
name, and the symbol they merge into is defined exactly when one of them is
(`ScopeStack.Merged.run`).
-/

set_option autoImplicit false
set_option linter.all false

namespace SolarFront

namespace Symbol

@[simp] theorem merge_defined (x sym : Symbol) :
    (ScopeStack.merge x sym).defined = (x.defined || sym.defined) := by
  unfold ScopeStack.merge
  split_ifs <;> simp_all

/-- What a merge changes: definedness, the defining declaration and an error type. -/
theorem merge_fields (x sym : Symbol) :
    let m := ScopeStack.merge x sym
    m.name = x.name ∧ m.kind = x.kind ∧ m.span = x.span ∧ m.decl = x.decl ∧
      m.isStatic = x.isStatic ∧ m.isInline = x.isInline ∧ m.isGlobal = x.isGlobal ∧
      m.value = x.value ∧ m.defined = (x.defined || sym.defined) ∧
      m.definition = (if sym.defined then sym.definition else x.definition) ∧
      m.ty = (if x.ty.isError then sym.ty else x.ty) := by
  unfold ScopeStack.merge
  split_ifs <;> simp_all

end Symbol

namespace ScopeStack

variable {s : ScopeStack} {sym x : Symbol} {id : Nat}

theorem symbol_of_getElem? (hx : s.symbols[id]? = some x) : s.symbol id = x := by
  simp [symbol, hx]

/-- The checks of a merge, in their order, as statements about the two symbols. -/
theorem mergeCheck_eq (x sym : Symbol) :
    mergeCheck x sym =
      if x.kind ≠ sym.kind ∨ x.kind = .const ∨ x.kind = .type then .error (.redefinition x.span)
      else if (x.ty ≠ sym.ty ∧ x.ty ≠ .error ∧ sym.ty ≠ .error) ∨ x.isStatic ≠ sym.isStatic ∨
          x.isInline ≠ sym.isInline then .error (.conflicting x.span)
      else if x.defined ∧ sym.defined then .error (.redefinition x.span)
      else .ok () := by
  have hkind : (x.kind != sym.kind || !(x.kind == .var || x.kind == .func)) = true ↔
      (x.kind ≠ sym.kind ∨ x.kind = .const ∨ x.kind = .type) := by
    cases x.kind <;> simp
  have hmarks : (!(x.ty == sym.ty || x.ty.isError || sym.ty.isError) ||
      x.isStatic != sym.isStatic || x.isInline != sym.isInline) = true ↔
      ((x.ty ≠ sym.ty ∧ x.ty ≠ .error ∧ sym.ty ≠ .error) ∨ x.isStatic ≠ sym.isStatic ∨
        x.isInline ≠ sym.isInline) := by
    have herr : ∀ t : TypeId, t.isError = false ↔ t ≠ .error := fun t => by
      rw [← Bool.not_eq_true, TypePool.TypeId.isError_iff]
    simp [herr, and_assoc, or_assoc]
  unfold mergeCheck
  by_cases h1 : x.kind ≠ sym.kind ∨ x.kind = .const ∨ x.kind = .type
  · rw [if_pos (hkind.mpr h1), if_pos h1]
  · rw [if_neg (fun h => h1 (hkind.mp h)), if_neg h1]
    dsimp only
    by_cases h2 : (x.ty ≠ sym.ty ∧ x.ty ≠ .error ∧ sym.ty ≠ .error) ∨ x.isStatic ≠ sym.isStatic ∨
        x.isInline ≠ sym.isInline
    · rw [if_pos (hmarks.mpr h2), if_pos h2]
    · rw [if_neg (fun h => h2 (hmarks.mp h)), if_neg h2]
      simp only [Bool.and_eq_true]

/-- The checks of a repeated declaration, in their order, and the merge that follows them. -/
theorem declare_of_bound (hb : s.resolveLocal sym.name = some id) (hx : s.symbols[id]? = some x) :
    s.declare sym =
      if x.kind ≠ sym.kind ∨ x.kind = .const ∨ x.kind = .type then .error (.redefinition x.span)
      else if (x.ty ≠ sym.ty ∧ x.ty ≠ .error ∧ sym.ty ≠ .error) ∨ x.isStatic ≠ sym.isStatic ∨
          x.isInline ≠ sym.isInline then .error (.conflicting x.span)
      else if x.defined ∧ sym.defined then .error (.redefinition x.span)
      else .ok (s.modifySymbol id (merge · sym), id) := by
  rw [declare, hb]
  simp only [symbol_of_getElem? hx, mergeCheck_eq]
  split_ifs <;> rfl

/-- An accepted repeated declaration merges into the symbol the name is bound to and changes
nothing else. -/
theorem symbol_declare_of_bound (hb : s.resolveLocal sym.name = some id)
    (hx : s.symbols[id]? = some x) {s' : ScopeStack} {id' : Nat}
    (h : s.declare sym = .ok (s', id')) :
    id' = id ∧ s'.symbol id = merge x sym ∧ (∀ j, j ≠ id → s'.symbol j = s.symbol j) ∧
      s'.frames = s.frames := by
  rw [declare_of_bound hb hx] at h
  split_ifs at h
  cases h
  have hlt : id < s.symbols.size := (Array.getElem?_eq_some_iff.mp hx).1
  exact ⟨rfl, by rw [symbol_modifySymbol_self hlt, symbol_of_getElem? hx],
    fun j hj => symbol_modifySymbol_of_ne hj _, rfl⟩

/-- A refused declaration leaves the stack of a run as it was. -/
theorem step_of_declare_error {e : SymbolError} (h : s.declare sym = .error e) :
    s.step (.declare sym) = s := by
  simp [step, h]

/-- The first declaration of a name in the innermost scope adds its symbol at the next index. -/
theorem declare_of_unbound (h : s.resolveLocal sym.name = none) :
    s.declare sym = .ok (⟨s.symbols.push sym,
      ((sym.name, s.symbols.size) :: s.frames.headD []) :: s.frames.tail⟩, s.symbols.size) := by
  rw [declare, h]
  cases s.frames <;> rfl

/-! ## Runs of declarations of one name -/

/-- The declarations of a run that the stack accepts, in order. -/
def accepted (s : ScopeStack) : List Symbol → List Symbol
  | [] => []
  | sym :: syms =>
    let rest := accepted (s.step (.declare sym)) syms
    if (s.declare sym).isOk then sym :: rest else rest

/-- The innermost scope's binding of `n` after the accepted declarations `acc` of it: none before
the first, then a symbol that is defined exactly when one of them is. -/
def Merged (n : String) (t : ScopeStack) (acc : List Symbol) : Prop :=
  if acc.isEmpty then t.resolveLocal n = none
  else ∃ id, t.resolveLocal n = some id ∧ id < t.symbols.size ∧
    (t.symbol id).defined = acc.any (·.defined)

theorem Merged.declare {n : String} {t : ScopeStack} {acc : List Symbol} (hm : Merged n t acc)
    (hc : acc.countP (·.defined) ≤ 1) {sym : Symbol} (hn : sym.name = n) :
    Merged n (t.step (.declare sym)) (acc ++ if (t.declare sym).isOk then [sym] else []) ∧
      (acc ++ if (t.declare sym).isOk then [sym] else []).countP (·.defined) ≤ 1 := by
  subst hn
  by_cases he : acc.isEmpty
  · -- the first accepted declaration adds the symbol
    obtain rfl := List.isEmpty_iff.mp he
    have hloc : t.resolveLocal sym.name = none := by simpa [Merged] using hm
    have hd := declare_of_unbound hloc
    simp only [step, hd, Except.isOk, Except.toBool, if_true, List.nil_append]
    refine ⟨?_, by simp only [List.countP_singleton]; split <;> omega⟩
    simp only [Merged, List.isEmpty_cons, Bool.false_eq_true, if_false]
    exact ⟨t.symbols.size, by simp [resolveLocal_eq], by simp, by simp [symbol_push_symbols_size]⟩
  · obtain ⟨id, hloc, hlt, hdef⟩ : ∃ id, t.resolveLocal sym.name = some id ∧
        id < t.symbols.size ∧ (t.symbol id).defined = acc.any (·.defined) := by
      simpa [Merged, he] using hm
    cases hd : t.declare sym with
    | error e =>
      simpa [step_of_declare_error hd, Except.isOk, Except.toBool] using ⟨hm, hc⟩
    | ok p =>
      obtain ⟨t', id'⟩ := p
      rcases declare_eq_ok hd with ⟨hloc', hcheck, rfl⟩ | ⟨hnone, -⟩
      · obtain rfl : id' = id := Option.some.inj (hloc'.symm.trans hloc)
        have hstep : t.step (.declare sym) = t.modifySymbol id' (merge · sym) := by
          simp only [step, hd]
        simp only [Except.isOk, Except.toBool, if_true, hstep]
        constructor
        · have hne : (acc ++ [sym]).isEmpty = false := by simp
          simp only [Merged, hne, Bool.false_eq_true, if_false]
          refine ⟨id', by rwa [resolveLocal_eq] at hloc ⊢, by simpa using hlt, ?_⟩
          rw [symbol_modifySymbol_self hlt, Symbol.merge_defined, hdef, List.any_append]
          simp
        · rw [List.countP_append, List.countP_singleton]
          by_cases hs : sym.defined
          · -- a defining merge needs an undefined symbol, so no earlier appearance defined it
            have hx : (t.symbol id').defined = false := by
              cases hxd : (t.symbol id').defined
              · rfl
              · simp [not_defined_of_mergeCheck hcheck hxd] at hs
            have hnone : acc.countP (·.defined) = 0 := by
              rw [hx, eq_comm, List.any_eq_false] at hdef
              exact List.countP_eq_zero.mpr hdef
            simp [hs, hnone]
          · simpa [hs] using hc
      · rw [hloc] at hnone
        cases hnone

/-- Along a run of declarations of one name, the accepted ones keep `Merged` and define the name at
most once. -/
theorem Merged.run {n : String} {t : ScopeStack} {acc : List Symbol} (hm : Merged n t acc)
    (hc : acc.countP (·.defined) ≤ 1) {syms : List Symbol} (hn : ∀ sym ∈ syms, sym.name = n) :
    Merged n (t.run (syms.map .declare)) (acc ++ t.accepted syms) ∧
      (acc ++ t.accepted syms).countP (·.defined) ≤ 1 := by
  induction syms generalizing t acc with
  | nil => simpa [accepted] using ⟨hm, hc⟩
  | cons sym syms ih =>
    obtain ⟨hm', hc'⟩ := hm.declare hc (hn sym List.mem_cons_self)
    have hrest := ih hm' hc' fun x hx => hn x (List.mem_cons_of_mem sym hx)
    have hsplit : acc ++ t.accepted (sym :: syms) =
        (acc ++ if (t.declare sym).isOk then [sym] else []) ++
          (t.step (.declare sym)).accepted syms := by
      simp only [accepted]
      split <;> simp
    rw [List.map_cons, run_cons, hsplit]
    exact hrest

end ScopeStack

/-- The checker goes on with the scopes it had when a declaration is refused. -/
theorem Check.declareSymbol_of_declare_error {st : CheckState} {sym : Symbol} {e : SymbolError}
    (h : st.scopes.declare sym = .error e) :
    ((Check.declareSymbol sym).run st).1 = none ∧
      ((Check.declareSymbol sym).run st).2.scopes = st.scopes := by
  simp [Check.declareSymbol, CheckM.report, h]
  exact ⟨rfl, rfl⟩

/-- The rules of declaring a name the innermost scope already binds to a symbol `x`: a change of
kind or a repeated constant or type is a redefinition, then a disagreement of type (the error
type agreeing with any) or of the `static` and `inline` marks is a conflict, then a second
definition is a redefinition; otherwise the declaration returns the index of `x`, which keeps its
span and first declaration, becomes defined by the new appearance if that one defines it, and
takes the new type if its own was the error type, and nothing else changes. A refused
declaration leaves the stack as it was, in a run of scope operations and in the checker. Over any
run of declarations of one name in one scope, at most one accepted appearance defines it, and the
symbol they merge into is defined exactly when one of them does. -/
theorem ScopeStack.redeclaration_rules :
    (∀ (s : ScopeStack) (sym x : Symbol) (id : Nat), s.resolveLocal sym.name = some id →
      s.symbols[id]? = some x →
      (s.declare sym).map Prod.snd =
        (if x.kind ≠ sym.kind ∨ x.kind = .const ∨ x.kind = .type then .error (.redefinition x.span)
        else if (x.ty ≠ sym.ty ∧ x.ty ≠ .error ∧ sym.ty ≠ .error) ∨ x.isStatic ≠ sym.isStatic ∨
            x.isInline ≠ sym.isInline then .error (.conflicting x.span)
        else if x.defined ∧ sym.defined then .error (.redefinition x.span)
        else .ok id) ∧
      ∀ (s' : ScopeStack) (id' : Nat), s.declare sym = .ok (s', id') →
        (s'.symbol id).span = x.span ∧ (s'.symbol id).decl = x.decl ∧
        (s'.symbol id).name = x.name ∧ (s'.symbol id).kind = x.kind ∧
        (s'.symbol id).isStatic = x.isStatic ∧ (s'.symbol id).isInline = x.isInline ∧
        (s'.symbol id).isGlobal = x.isGlobal ∧ (s'.symbol id).value = x.value ∧
        (s'.symbol id).defined = (x.defined || sym.defined) ∧
        (s'.symbol id).definition = (if sym.defined then sym.definition else x.definition) ∧
        (s'.symbol id).ty = (if x.ty = .error then sym.ty else x.ty) ∧
        (∀ j, j ≠ id → s'.symbol j = s.symbol j) ∧ s'.frames = s.frames) ∧
    (∀ (s : ScopeStack) (sym : Symbol) (e : SymbolError), s.declare sym = .error e →
      s.step (.declare sym) = s ∧ ∀ st : CheckState, st.scopes = s →
        ((Check.declareSymbol sym).run st).1 = none ∧
        ((Check.declareSymbol sym).run st).2.scopes = s) ∧
    (∀ (s : ScopeStack) (n : String) (syms : List Symbol), s.resolveLocal n = none →
      (∀ sym ∈ syms, sym.name = n) →
      ((s.accepted syms).filter (·.defined)).length ≤ 1 ∧
      (syms ≠ [] → ∃ id, (s.run (syms.map .declare)).resolveLocal n = some id ∧
        (((s.run (syms.map .declare)).symbol id).defined = true ↔
          ∃ a ∈ s.accepted syms, a.defined = true))) := by
  refine ⟨?bound, ?refused, ?run⟩
  case bound =>
    intro s sym x id hb hx
    refine ⟨by rw [ScopeStack.declare_of_bound hb hx]; split_ifs <;> rfl, ?_⟩
    intro s' id' h
    obtain ⟨-, hsym, hother, hframes⟩ := ScopeStack.symbol_declare_of_bound hb hx h
    obtain ⟨h₁, h₂, h₃, h₄, h₅, h₆, h₇, h₈, h₉, h₁₀, h₁₁⟩ := Symbol.merge_fields x sym
    rw [hsym]
    refine ⟨h₃, h₄, h₁, h₂, h₅, h₆, h₇, h₈, h₉, h₁₀, ?_, hother, hframes⟩
    simpa [← Bool.eq_iff_iff, TypePool.TypeId.isError_iff] using h₁₁
  case refused =>
    intro s sym e h
    refine ⟨ScopeStack.step_of_declare_error h, fun st hst => ?_⟩
    subst hst
    exact Check.declareSymbol_of_declare_error h
  case run =>
    intro s n syms hnone hn
    have hm : ScopeStack.Merged n s [] := by simpa [ScopeStack.Merged] using hnone
    obtain ⟨hmerged, hcount⟩ := hm.run (by simp) hn
    rw [List.nil_append] at hmerged hcount
    refine ⟨by rwa [← List.countP_eq_length_filter], fun hne => ?_⟩
    -- the first declaration is accepted, so the name is bound from then on
    obtain ⟨sym, rest, rfl⟩ := List.exists_cons_of_ne_nil hne
    have hfirst : (s.declare sym).isOk = true := by
      rw [ScopeStack.declare_of_unbound (by rw [hn sym List.mem_cons_self]; exact hnone)]
      rfl
    have hacc : (s.accepted (sym :: rest)).isEmpty = false := by
      simp [ScopeStack.accepted, hfirst]
    simp only [ScopeStack.Merged, hacc, Bool.false_eq_true, if_false] at hmerged
    obtain ⟨id, hloc, -, hdef⟩ := hmerged
    exact ⟨id, hloc, by rw [hdef, List.any_eq_true]⟩

end SolarFront
