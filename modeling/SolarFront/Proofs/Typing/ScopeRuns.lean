import Mathlib
import SolarFront.Typing.Scope

/-!
# Runs of scope operations

A client drives the scope stack with four operations: open a scope, close one, declare a
symbol and resolve a name. This module follows whole runs of them from the empty stack.

* The open scopes are the module's and one for every `push` not yet undone by a `pop`; a `pop`
  with only the module's scope open does nothing (`WellFormed.depth_run`).
* A name resolves to its binding in the innermost scope that binds it, and to nothing when no
  scope binds it (`WellFormed.resolve_eq_some_iff`, `resolve_eq_none_iff`).
* A declaration changes the innermost scope and the one symbol it adds or merges into, nothing
  else (`declare_eq_ok` and the lemmas after it).
* Hence a balanced run between a `push` and its `pop` closes every scope it opens and leaves
  every name resolving as before the `push` (`WellFormed.frames_push_run_pop`).
* An index, once handed out, names a symbol whose name, kind and span never change: a merge
  only completes a declaration and replaces the error type (`Keeps`).

`WellFormed` carries this along a run: the module's scope is open, a scope binds a name at
most once, and a bound index names a symbol of that name.
-/

set_option autoImplicit false
set_option linter.all false

namespace SolarFront

/-- One operation on a scope stack. -/
inductive ScopeOp where
  | push
  | pop
  | declare (sym : Symbol)
  | resolve (name : String)

namespace ScopeOp

/-- How many scopes above the module's are open after the operation, given how many were open
before; a `pop` closes one only if there is one. -/
def openAfter (k : Nat) : ScopeOp → Nat
  | .push => k + 1
  | .pop => k - 1
  | .declare _ | .resolve _ => k

/-- How many scopes above the module's are open after a run from the empty stack. -/
def pending (ops : List ScopeOp) : Nat := ops.foldl openAfter 0

/-- How many of the scopes the operations open are still open after them, given `k` of their
own already open; none when a `pop` would close a scope opened before them. -/
def netOpen : Nat → List ScopeOp → Option Nat
  | k, [] => some k
  | k, .push :: ops => netOpen (k + 1) ops
  | 0, .pop :: _ => none
  | k + 1, .pop :: ops => netOpen k ops
  | k, .declare _ :: ops => netOpen k ops
  | k, .resolve _ :: ops => netOpen k ops

/-- Pushes and pops pair up: every `pop` closes a scope the operations opened, and every scope
they open is closed again. -/
def Balanced (ops : List ScopeOp) : Prop := netOpen 0 ops = some 0

instance (ops : List ScopeOp) : Decidable (Balanced ops) :=
  inferInstanceAs (Decidable (netOpen 0 ops = some 0))

end ScopeOp

namespace Symbol

/-- What a symbol keeps while later declarations merge into it: its name, kind, span, marks,
first declaration and value stay, once defined it stays defined by the same declaration, and
its type changes only from the error type. -/
structure Keeps (a b : Symbol) : Prop where
  name : b.name = a.name
  kind : b.kind = a.kind
  span : b.span = a.span
  isStatic : b.isStatic = a.isStatic
  isInline : b.isInline = a.isInline
  isGlobal : b.isGlobal = a.isGlobal
  decl : b.decl = a.decl
  value : b.value = a.value
  defined : a.defined → b.defined
  definition : a.defined → b.definition = a.definition
  ty : b.ty = a.ty ∨ a.ty.isError

namespace Keeps

theorem refl (a : Symbol) : a.Keeps a :=
  ⟨rfl, rfl, rfl, rfl, rfl, rfl, rfl, rfl, id, fun _ => rfl, .inl rfl⟩

theorem trans {a b c : Symbol} (h₁ : a.Keeps b) (h₂ : b.Keeps c) : a.Keeps c where
  name := h₂.name.trans h₁.name
  kind := h₂.kind.trans h₁.kind
  span := h₂.span.trans h₁.span
  isStatic := h₂.isStatic.trans h₁.isStatic
  isInline := h₂.isInline.trans h₁.isInline
  isGlobal := h₂.isGlobal.trans h₁.isGlobal
  decl := h₂.decl.trans h₁.decl
  value := h₂.value.trans h₁.value
  defined h := h₂.defined (h₁.defined h)
  definition h := (h₂.definition (h₁.defined h)).trans (h₁.definition h)
  ty := by
    rcases h₁.ty with h | h
    · rcases h₂.ty with h' | h'
      · exact .inl (h'.trans h)
      · exact .inr (h ▸ h')
    · exact .inr h

end Keeps

end Symbol

namespace ScopeStack

/-! ## The operations, one at a time -/

@[simp] theorem symbol_push (sc : ScopeStack) (i : Nat) : sc.push.symbol i = sc.symbol i := rfl

@[simp] theorem symbol_pop (sc : ScopeStack) (i : Nat) : sc.pop.symbol i = sc.symbol i := by
  unfold pop
  split <;> rfl

/-- Changing one symbol changes it by `f` and leaves the others. -/
theorem symbol_modifySymbol (sc : ScopeStack) (i : Nat) (f : Symbol → Symbol) (j : Nat) :
    (sc.modifySymbol i f).symbol j = sc.symbol j ∨
      (j = i ∧ (sc.modifySymbol i f).symbol j = f (sc.symbol j)) := by
  by_cases hj : j = i
  · subst hj
    by_cases hlt : j < sc.symbols.size
    · right
      simp [modifySymbol, symbol, Array.getElem?_modify, Array.getElem?_eq_getElem hlt]
    · left
      simp [modifySymbol, symbol, Array.getElem?_modify, Array.getElem?_eq_none (Nat.le_of_not_lt hlt)]
  · left
    simp [modifySymbol, symbol, Array.getElem?_modify, Ne.symm hj]

@[simp] theorem symbols_push (s : ScopeStack) : s.push.symbols = s.symbols := rfl

@[simp] theorem frames_push (s : ScopeStack) : s.push.frames = [] :: s.frames := rfl

@[simp] theorem symbols_pop (s : ScopeStack) : s.pop.symbols = s.symbols := by
  unfold pop
  split <;> rfl

/-- A `pop` closes the innermost scope when another one is open. -/
theorem frames_pop_of_cons_cons {s : ScopeStack} {f g : Frame} {rest : List Frame}
    (h : s.frames = f :: g :: rest) : s.pop.frames = g :: rest := by
  unfold pop
  rw [h]

/-- A `pop` with at most one scope open does nothing. -/
theorem pop_of_length_le_one {s : ScopeStack} (h : s.frames.length ≤ 1) : s.pop = s := by
  unfold pop
  split
  · rename_i heq
    rw [heq] at h
    simp at h
  · rfl

@[simp] theorem size_modifySymbol (s : ScopeStack) (i : Nat) (f : Symbol → Symbol) :
    (s.modifySymbol i f).symbols.size = s.symbols.size := by
  simp [modifySymbol]

@[simp] theorem frames_modifySymbol (s : ScopeStack) (i : Nat) (f : Symbol → Symbol) :
    (s.modifySymbol i f).frames = s.frames := rfl

theorem symbol_modifySymbol_self {s : ScopeStack} {i : Nat} (h : i < s.symbols.size)
    (f : Symbol → Symbol) : (s.modifySymbol i f).symbol i = f (s.symbol i) := by
  simp [modifySymbol, symbol, Array.getElem?_modify, Array.getElem?_eq_getElem h]

theorem symbol_modifySymbol_of_ne {s : ScopeStack} {i j : Nat} (h : j ≠ i)
    (f : Symbol → Symbol) : (s.modifySymbol i f).symbol j = s.symbol j := by
  simp [modifySymbol, symbol, Array.getElem?_modify, Ne.symm h]

theorem symbol_push_symbols_of_lt {s : ScopeStack} {sym : Symbol} {j : Nat}
    (h : j < s.symbols.size) (frames : List Frame) :
    ({ symbols := s.symbols.push sym, frames } : ScopeStack).symbol j = s.symbol j := by
  simp [symbol, Array.getElem?_push, Nat.ne_of_lt h]

theorem symbol_push_symbols_size (s : ScopeStack) (sym : Symbol) (frames : List Frame) :
    ({ symbols := s.symbols.push sym, frames } : ScopeStack).symbol s.symbols.size = sym := by
  simp [symbol]

/-- The innermost scope's binding of a name. -/
theorem resolveLocal_eq (s : ScopeStack) (n : String) :
    s.resolveLocal n = (s.frames.headD []).lookup n := by
  unfold resolveLocal
  split <;> simp_all

/-- Resolution reads the scopes only. -/
theorem resolve_congr {s t : ScopeStack} (h : s.frames = t.frames) (n : String) :
    s.resolve n = t.resolve n := by
  simp only [resolve, h]

/-! ## What a declaration does -/

/-- A merge the scope rules allow never joins two definitions. -/
theorem not_defined_of_mergeCheck {existing new : Symbol} (h : mergeCheck existing new = .ok ())
    (hd : existing.defined) : new.defined = false := by
  cases hn : new.defined
  · rfl
  · simp only [mergeCheck, hd, hn] at h
    split_ifs at h with _ _ hboth
    exact absurd rfl hboth

/-- A merge the scope rules allow keeps the earlier symbol. -/
theorem keeps_merge {existing new : Symbol} (h : mergeCheck existing new = .ok ()) :
    existing.Keeps (merge existing new) := by
  have hdef := not_defined_of_mergeCheck h
  unfold merge
  constructor <;> split_ifs <;> simp_all

/-- A declaration merges into the symbol the innermost scope binds the name to, or adds the
symbol at the next index and binds the name to it in the innermost scope. -/
theorem declare_eq_ok {s s' : ScopeStack} {sym : Symbol} {id : Nat}
    (h : s.declare sym = .ok (s', id)) :
    (s.resolveLocal sym.name = some id ∧ mergeCheck (s.symbol id) sym = .ok () ∧
      s' = s.modifySymbol id (merge · sym)) ∨
    (s.resolveLocal sym.name = none ∧ id = s.symbols.size ∧
      s' = { symbols := s.symbols.push sym,
             frames := ((sym.name, id) :: s.frames.headD []) :: s.frames.tail }) := by
  unfold declare at h
  split at h
  · rename_i id' hloc
    split at h
    · cases h
    · rename_i hm
      cases h
      exact .inl ⟨hloc, hm, rfl⟩
  · rename_i hloc
    cases h
    refine .inr ⟨hloc, rfl, ?_⟩
    cases hf : s.frames <;> simp

/-- A declaration leaves every scope but the innermost, and some innermost scope is open after
it. -/
theorem declare_frames {s s' : ScopeStack} {sym : Symbol} {id : Nat}
    (h : s.declare sym = .ok (s', id)) (hs : s.frames ≠ []) :
    ∃ f, s'.frames = f :: s.frames.tail := by
  rcases declare_eq_ok h with ⟨-, -, rfl⟩ | ⟨-, -, rfl⟩
  · obtain ⟨f, rest, hf⟩ := List.exists_cons_of_ne_nil hs
    exact ⟨f, by simp [hf]⟩
  · exact ⟨_, rfl⟩

/-- A declaration changes no symbol but the one whose index it returns. -/
theorem symbol_declare_of_ne {s s' : ScopeStack} {sym : Symbol} {id j : Nat}
    (h : s.declare sym = .ok (s', id)) (hj : j ≠ id) : s'.symbol j = s.symbol j := by
  rcases declare_eq_ok h with ⟨-, -, rfl⟩ | ⟨-, rfl, rfl⟩
  · exact symbol_modifySymbol_of_ne hj _
  · by_cases hlt : j < s.symbols.size
    · exact symbol_push_symbols_of_lt hlt _
    · simp [symbol, Array.getElem?_push, hj, Array.getElem?_eq_none (Nat.le_of_not_lt hlt)]

/-- After a declaration its name resolves to the index it returned. -/
theorem resolve_declare_self {s s' : ScopeStack} {sym : Symbol} {id : Nat}
    (h : s.declare sym = .ok (s', id)) : s'.resolve sym.name = some id := by
  rcases declare_eq_ok h with ⟨hloc, -, rfl⟩ | ⟨-, -, rfl⟩
  · rw [resolveLocal_eq] at hloc
    cases hf : s.frames with
    | nil => simp [hf] at hloc
    | cons f rest =>
      simp only [hf, List.headD_cons] at hloc
      simp [resolve, hf, hloc]
  · simp [resolve]

/-- A declaration leaves the resolution of every other name as it was. -/
theorem resolve_declare_of_ne {s s' : ScopeStack} {sym : Symbol} {id : Nat}
    (h : s.declare sym = .ok (s', id)) {n : String} (hn : n ≠ sym.name) :
    s'.resolve n = s.resolve n := by
  rcases declare_eq_ok h with ⟨-, -, rfl⟩ | ⟨-, -, rfl⟩
  · rfl
  · have hne : (n == sym.name) = false := by simpa using hn
    cases hf : s.frames with
    | nil => simp [resolve, hf, List.lookup_cons, hne]
    | cons f rest => simp [resolve, hf, List.lookup_cons, hne, List.findSome?_cons]

/-! ## Runs -/

/-- The stack after one operation; a refused declaration leaves it as it was. -/
def step (s : ScopeStack) : ScopeOp → ScopeStack
  | .push => s.push
  | .pop => s.pop
  | .declare sym =>
    match s.declare sym with
    | .ok (s', _) => s'
    | .error _ => s
  | .resolve _ => s

/-- The stack after a run of operations, in order. -/
def run (s : ScopeStack) (ops : List ScopeOp) : ScopeStack := ops.foldl step s

@[simp] theorem run_nil (s : ScopeStack) : s.run [] = s := rfl

@[simp] theorem run_cons (s : ScopeStack) (op : ScopeOp) (ops : List ScopeOp) :
    s.run (op :: ops) = (s.step op).run ops := rfl

theorem run_append (s : ScopeStack) (ops more : List ScopeOp) :
    s.run (ops ++ more) = (s.run ops).run more :=
  List.foldl_append

/-- What a declaration step does: nothing when refused, else what `declare` returns. -/
theorem step_declare (s : ScopeStack) (sym : Symbol) :
    s.step (.declare sym) = s ∨ ∃ id, s.declare sym = .ok (s.step (.declare sym), id) := by
  simp only [step]
  split
  · rename_i s' id h
    exact .inr ⟨id, h⟩
  · exact .inl rfl

/-! ## The invariant of a run -/

/-- What every stack reached from the empty one satisfies. -/
structure WellFormed (s : ScopeStack) : Prop where
  /-- The module's scope is open. -/
  frames_ne_nil : s.frames ≠ []
  /-- A scope binds a name at most once. -/
  nodup : ∀ f ∈ s.frames, (f.map Prod.fst).Nodup
  /-- A bound index names a symbol, of the bound name. -/
  bound : ∀ f ∈ s.frames, ∀ n id, (n, id) ∈ f → id < s.symbols.size ∧ (s.symbol id).name = n

theorem wellFormed_empty : ({} : ScopeStack).WellFormed where
  frames_ne_nil := by simp
  nodup := by simp
  bound := by simp

namespace WellFormed

variable {s : ScopeStack}

theorem push (hs : s.WellFormed) : s.push.WellFormed where
  frames_ne_nil := by simp
  nodup f hf := by
    rcases List.mem_cons.mp hf with rfl | hf
    · simp
    · exact hs.nodup f hf
  bound f hf := by
    rcases List.mem_cons.mp hf with rfl | hf
    · simp
    · exact hs.bound f hf

theorem pop (hs : s.WellFormed) : s.pop.WellFormed := by
  cases hf : s.frames with
  | nil => exact absurd hf hs.frames_ne_nil
  | cons f rest =>
    cases rest with
    | nil => rwa [pop_of_length_le_one (by simp [hf])]
    | cons g rest =>
      have hpop := frames_pop_of_cons_cons hf
      refine ⟨by simp [hpop], fun f' hf' => hs.nodup f' ?_, fun f' hf' => ?_⟩
      · rw [hpop] at hf'
        simp [hf, hf']
      · rw [hpop] at hf'
        simpa using hs.bound f' (by simp [hf, hf'])

/-- A merge keeps every bound index naming a symbol of its name. -/
theorem modifySymbol_merge (hs : s.WellFormed) (id : Nat) (sym : Symbol)
    (hm : mergeCheck (s.symbol id) sym = .ok ()) : (s.modifySymbol id (merge · sym)).WellFormed where
  frames_ne_nil := hs.frames_ne_nil
  nodup := hs.nodup
  bound f hf n j hj := by
    obtain ⟨hlt, hname⟩ := hs.bound f hf n j hj
    refine ⟨by simpa using hlt, ?_⟩
    rcases symbol_modifySymbol s id (merge · sym) j with h | ⟨rfl, h⟩
    · rw [h, hname]
    · rw [h, (keeps_merge hm).name, hname]

/-- A fresh declaration binds its name in the innermost scope, where it was not bound. -/
theorem declareFresh (hs : s.WellFormed) (sym : Symbol) (hloc : s.resolveLocal sym.name = none) :
    ({ symbols := s.symbols.push sym,
       frames := ((sym.name, s.symbols.size) :: s.frames.headD []) :: s.frames.tail } :
        ScopeStack).WellFormed := by
  obtain ⟨f, rest, hf⟩ := List.exists_cons_of_ne_nil hs.frames_ne_nil
  rw [resolveLocal_eq, hf, List.headD_cons, List.lookup_eq_none_iff] at hloc
  have hfresh : sym.name ∉ f.map Prod.fst := by
    intro hmem
    obtain ⟨p, hp, hpn⟩ := List.mem_map.mp hmem
    simpa [hpn] using hloc p hp
  -- an index bound before the declaration still names the same symbol
  have hold : ∀ f' ∈ s.frames, ∀ n j, (n, j) ∈ f' → j < s.symbols.size + 1 ∧
      (ScopeStack.symbol ⟨s.symbols.push sym, ((sym.name, s.symbols.size) :: f) :: rest⟩ j).name
        = n := by
    intro f' hf' n j hj
    obtain ⟨hlt, hname⟩ := hs.bound f' hf' n j hj
    exact ⟨by omega, by rw [symbol_push_symbols_of_lt hlt, hname]⟩
  simp only [hf, List.headD_cons, List.tail_cons]
  constructor
  · simp
  · intro f' hf'
    rcases List.mem_cons.mp hf' with rfl | hf'
    · exact List.nodup_cons.mpr ⟨hfresh, hs.nodup f (by simp [hf])⟩
    · exact hs.nodup f' (by simp [hf, hf'])
  · intro f' hf' n j hj
    simp only [Array.size_push]
    rcases List.mem_cons.mp hf' with rfl | hf'
    · rcases List.mem_cons.mp hj with hj | hj
      · obtain ⟨rfl, rfl⟩ := Prod.mk.inj hj
        exact ⟨by omega, by rw [symbol_push_symbols_size]⟩
      · exact hold f (by simp [hf]) n j hj
    · exact hold f' (by simp [hf, hf']) n j hj

theorem declare (hs : s.WellFormed) {sym : Symbol} {s' : ScopeStack} {id : Nat}
    (h : s.declare sym = .ok (s', id)) : s'.WellFormed := by
  rcases declare_eq_ok h with ⟨-, hm, rfl⟩ | ⟨hloc, rfl, rfl⟩
  · exact hs.modifySymbol_merge id sym hm
  · exact hs.declareFresh sym hloc

theorem step (hs : s.WellFormed) (op : ScopeOp) : (s.step op).WellFormed := by
  cases op with
  | push => exact hs.push
  | pop => exact hs.pop
  | declare sym =>
    rcases step_declare s sym with h | ⟨id, h⟩
    · rwa [h]
    · exact hs.declare h
  | resolve => exact hs

theorem run (hs : s.WellFormed) (ops : List ScopeOp) : (s.run ops).WellFormed := by
  induction ops generalizing s with
  | nil => exact hs
  | cons op ops ih => exact ih (hs.step op)

end WellFormed

/-! ## Resolution -/

/-- In a scope that binds each name at most once, looking a name up finds its binding. -/
theorem lookup_eq_some_iff_mem {f : Frame} (hf : (f.map Prod.fst).Nodup) {n : String}
    {id : Nat} : f.lookup n = some id ↔ (n, id) ∈ f := by
  constructor
  · intro h
    obtain ⟨l₁, l₂, rfl, -⟩ := List.lookup_eq_some_iff.mp h
    simp
  · intro h
    have hsome : (f.lookup n).isSome := List.lookup_isSome_iff.mpr ⟨(n, id), h, by simp⟩
    obtain ⟨id', hid'⟩ := Option.isSome_iff_exists.mp hsome
    obtain ⟨l₁, l₂, hsplit, -⟩ := List.lookup_eq_some_iff.mp hid'
    have hmem : (n, id') ∈ f := by simp [hsplit]
    have hsame := List.inj_on_of_nodup_map hf h hmem rfl
    rw [hid', (Prod.mk.inj hsame).2]

theorem lookup_eq_none_iff_not_mem {f : Frame} {n : String} :
    f.lookup n = none ↔ n ∉ f.map Prod.fst := by
  rw [List.lookup_eq_none_iff]
  constructor
  · intro h hmem
    obtain ⟨p, hp, rfl⟩ := List.mem_map.mp hmem
    simpa using h p hp
  · intro h p hp
    have hne : p.1 ≠ n := fun he => h (List.mem_map.mpr ⟨p, hp, he⟩)
    exact bne_iff_ne.mpr (Ne.symm hne)

/-- No scope binds a name that resolves to nothing. -/
theorem resolve_eq_none_iff {s : ScopeStack} {n : String} :
    s.resolve n = none ↔ ∀ f ∈ s.frames, n ∉ f.map Prod.fst := by
  simp only [resolve, List.findSome?_eq_none_iff, lookup_eq_none_iff_not_mem]

namespace WellFormed

variable {s : ScopeStack}

/-- A name resolves to its binding in the innermost scope that binds it. -/
theorem resolve_eq_some_iff (hs : s.WellFormed) {n : String} {id : Nat} :
    s.resolve n = some id ↔ ∃ above f below, s.frames = above ++ f :: below ∧
      (∀ g ∈ above, n ∉ g.map Prod.fst) ∧ (n, id) ∈ f := by
  unfold resolve
  rw [List.findSome?_eq_some_iff]
  constructor
  · rintro ⟨above, f, below, hfr, hf, habove⟩
    have hnodup := hs.nodup f (by simp [hfr])
    exact ⟨above, f, below, hfr, fun g hg => lookup_eq_none_iff_not_mem.mp (habove g hg),
      (lookup_eq_some_iff_mem hnodup).mp hf⟩
  · rintro ⟨above, f, below, hfr, habove, hf⟩
    have hnodup := hs.nodup f (by simp [hfr])
    exact ⟨above, f, below, hfr, (lookup_eq_some_iff_mem hnodup).mpr hf,
      fun g hg => lookup_eq_none_iff_not_mem.mpr (habove g hg)⟩

/-- A name resolves to an index that names a symbol of that name. -/
theorem resolve_bound (hs : s.WellFormed) {n : String} {id : Nat} (h : s.resolve n = some id) :
    id < s.symbols.size ∧ (s.symbol id).name = n := by
  obtain ⟨above, f, below, hfr, -, hf⟩ := hs.resolve_eq_some_iff.mp h
  exact hs.bound f (by simp [hfr]) n id hf

end WellFormed

/-! ## Symbols keep what they are -/

/-- Every symbol of `s` is still in `s'` and keeps what it was. -/
structure Keeps (s s' : ScopeStack) : Prop where
  size_le : s.symbols.size ≤ s'.symbols.size
  symbol : ∀ id < s.symbols.size, (s.symbol id).Keeps (s'.symbol id)

namespace Keeps

theorem refl (s : ScopeStack) : s.Keeps s := ⟨le_rfl, fun _ _ => .refl _⟩

theorem trans {s₁ s₂ s₃ : ScopeStack} (h₁ : s₁.Keeps s₂) (h₂ : s₂.Keeps s₃) : s₁.Keeps s₃ :=
  ⟨h₁.size_le.trans h₂.size_le,
    fun id hid => (h₁.symbol id hid).trans (h₂.symbol id (lt_of_lt_of_le hid h₁.size_le))⟩

theorem of_symbols_eq {s s' : ScopeStack} (h : s'.symbols = s.symbols) : s.Keeps s' :=
  ⟨h ▸ le_rfl, fun id _ => by simp only [ScopeStack.symbol, h]; exact .refl _⟩

end Keeps

theorem keeps_declare {s s' : ScopeStack} {sym : Symbol} {id : Nat}
    (h : s.declare sym = .ok (s', id)) : s.Keeps s' := by
  rcases declare_eq_ok h with ⟨-, hm, rfl⟩ | ⟨-, rfl, rfl⟩
  · refine ⟨by simp, fun j hj => ?_⟩
    by_cases hji : j = id
    · subst hji
      rw [symbol_modifySymbol_self hj]
      exact keeps_merge hm
    · rw [symbol_modifySymbol_of_ne hji]
      exact .refl _
  · refine ⟨by simp, fun j hj => ?_⟩
    rw [symbol_push_symbols_of_lt hj]
    exact .refl _

theorem keeps_step (s : ScopeStack) (op : ScopeOp) : s.Keeps (s.step op) := by
  cases op with
  | push => exact .of_symbols_eq rfl
  | pop => exact .of_symbols_eq (symbols_pop s)
  | declare sym =>
    rcases step_declare s sym with h | ⟨id, h⟩
    · rw [h]
      exact .refl s
    · exact keeps_declare h
  | resolve => exact .refl s

theorem keeps_run (s : ScopeStack) (ops : List ScopeOp) : s.Keeps (s.run ops) := by
  induction ops generalizing s with
  | nil => exact .refl s
  | cons op ops ih => exact (keeps_step s op).trans (ih _)

/-! ## The open scopes -/

/-- One operation opens, closes or keeps scopes as `ScopeOp.openAfter` counts them. -/
theorem depth_step {s : ScopeStack} (hs : s.frames ≠ []) (op : ScopeOp) :
    (s.step op).depth = op.openAfter (s.depth - 1) + 1 := by
  obtain ⟨f, rest, hf⟩ := List.exists_cons_of_ne_nil hs
  cases op with
  | push => simp [step, depth, ScopeOp.openAfter, hf]
  | pop =>
    cases rest with
    | nil =>
      rw [step, pop_of_length_le_one (by simp [hf])]
      simp [depth, ScopeOp.openAfter, hf]
    | cons g rest => simp [step, depth, ScopeOp.openAfter, frames_pop_of_cons_cons hf, hf]
  | declare sym =>
    rcases step_declare s sym with h | ⟨id, h⟩
    · simp [h, depth, ScopeOp.openAfter, hf]
    · obtain ⟨f', hf'⟩ := declare_frames h hs
      simp [depth, ScopeOp.openAfter, hf', hf]
  | resolve => simp [step, depth, ScopeOp.openAfter, hf]

theorem WellFormed.depth_run {s : ScopeStack} (hs : s.WellFormed) (ops : List ScopeOp) :
    (s.run ops).depth = ops.foldl ScopeOp.openAfter (s.depth - 1) + 1 := by
  induction ops generalizing s with
  | nil =>
    obtain ⟨f, rest, hf⟩ := List.exists_cons_of_ne_nil hs.frames_ne_nil
    simp [depth, hf]
  | cons op ops ih =>
    rw [run_cons, ih (hs.step op), List.foldl_cons, depth_step hs.frames_ne_nil op,
      Nat.add_sub_cancel]

/-- Operations that never close a scope opened before them rewrite only the `k + 1` innermost
scopes `t` above the scopes `b`, and leave `m + 1` scopes in their place, `m` as
`ScopeOp.netOpen` counts. -/
theorem run_frames_of_netOpen {ops : List ScopeOp} {k m : Nat}
    (h : ScopeOp.netOpen k ops = some m) {s : ScopeStack} {t b : List Frame}
    (hs : s.frames = t ++ b) (hk : t.length = k + 1) :
    ∃ t', (s.run ops).frames = t' ++ b ∧ t'.length = m + 1 := by
  induction ops generalizing k s t with
  | nil =>
    simp only [ScopeOp.netOpen, Option.some.injEq] at h
    subst h
    exact ⟨t, hs, hk⟩
  | cons op ops ih =>
    cases op with
    | push =>
      simp only [ScopeOp.netOpen] at h
      exact ih h (s := s.step .push) (t := [] :: t) (by simp [step, hs]) (by simp [hk])
    | pop =>
      cases k with
      | zero => simp [ScopeOp.netOpen] at h
      | succ k =>
        simp only [ScopeOp.netOpen] at h
        match t, hk with
        | f :: g :: r, hk =>
          exact ih h (s := s.step .pop) (t := g :: r)
            (@frames_pop_of_cons_cons s f g (r ++ b) (by simp [hs])) (by simpa using hk)
    | declare sym =>
      simp only [ScopeOp.netOpen] at h
      match t, hk with
      | f :: r, hk =>
        have hstep : ∃ f', (s.step (.declare sym)).frames = f' :: (r ++ b) := by
          rcases step_declare s sym with h' | ⟨id, h'⟩
          · exact ⟨f, by rw [h', hs]; rfl⟩
          · obtain ⟨f', hf'⟩ := declare_frames h' (by simp [hs])
            exact ⟨f', by rw [hf', hs]; rfl⟩
        obtain ⟨f', hf'⟩ := hstep
        exact ih h (s := s.step (.declare sym)) (t := f' :: r) hf' (by simpa using hk)
    | resolve n =>
      simp only [ScopeOp.netOpen] at h
      exact ih h (s := s.step (.resolve n)) hs hk

/-- A balanced run between a `push` and its `pop` gives back the scopes it found. -/
theorem WellFormed.frames_push_run_pop {s : ScopeStack} (hs : s.WellFormed)
    {body : List ScopeOp} (hb : ScopeOp.Balanced body) :
    (s.run (.push :: (body ++ [.pop]))).frames = s.frames := by
  obtain ⟨t, htop, hlen⟩ :=
    run_frames_of_netOpen hb (s := s.step .push) (t := [[]]) (b := s.frames) rfl rfl
  obtain ⟨f, rfl⟩ := List.length_eq_one_iff.mp hlen
  obtain ⟨g, rest, hg⟩ := List.exists_cons_of_ne_nil hs.frames_ne_nil
  rw [run_cons, run_append, run_cons, run_nil]
  exact (frames_pop_of_cons_cons (by rw [htop, hg]; rfl)).trans hg.symm

/-! ## Runs from the empty stack -/

/-- What every run of scope operations from the empty stack guarantees. The open scopes are the
module's and one per `push` not yet undone; a name resolves to its binding in the innermost scope
that binds it, to an index naming a symbol of that name, or to nothing when no scope binds it; a
declaration changes only the innermost scope and its own symbol, and returns the index the
innermost scope binds the name to or the next fresh one; a balanced run between a `push` and its
`pop` leaves every name resolving as before; and every symbol keeps its name, kind and span
through any later run. -/
theorem run_scope_laws (ops : List ScopeOp) :
    let s := ScopeStack.run {} ops
    s.depth = ScopeOp.pending ops + 1 ∧
    (∀ n id, s.resolve n = some id ↔ ∃ above f below, s.frames = above ++ f :: below ∧
      (∀ g ∈ above, n ∉ g.map Prod.fst) ∧ (n, id) ∈ f) ∧
    (∀ n, s.resolve n = none ↔ ∀ f ∈ s.frames, n ∉ f.map Prod.fst) ∧
    (∀ n id, s.resolve n = some id → id < s.symbols.size ∧ (s.symbol id).name = n) ∧
    (∀ sym s' id, s.declare sym = .ok (s', id) →
      s'.frames.tail = s.frames.tail ∧ (∀ j, j ≠ id → s'.symbol j = s.symbol j) ∧
      s'.resolve sym.name = some id ∧ (∀ n, n ≠ sym.name → s'.resolve n = s.resolve n) ∧
      (s.resolveLocal sym.name = some id ∨ id = s.symbols.size)) ∧
    (∀ body, ScopeOp.Balanced body → ∀ n,
      (ScopeStack.run {} (ops ++ ScopeOp.push :: (body ++ [ScopeOp.pop]))).resolve n =
        s.resolve n) ∧
    (∀ more, s.Keeps (ScopeStack.run {} (ops ++ more))) := by
  intro s
  have hs : s.WellFormed := wellFormed_empty.run ops
  refine ⟨?depth, fun n id => hs.resolve_eq_some_iff, fun n => resolve_eq_none_iff,
    fun n id h => hs.resolve_bound h, ?declare, ?roundTrip, fun more => ?keeps⟩
  case depth => exact wellFormed_empty.depth_run ops
  case declare =>
    intro sym s' id h
    obtain ⟨f, hf⟩ := declare_frames h hs.frames_ne_nil
    refine ⟨by rw [hf]; rfl, fun j hj => symbol_declare_of_ne h hj, resolve_declare_self h,
      fun n hn => resolve_declare_of_ne h hn, ?_⟩
    rcases declare_eq_ok h with ⟨hloc, -, -⟩ | ⟨-, rfl, -⟩
    · exact .inl hloc
    · exact .inr rfl
  case roundTrip =>
    intro body hb n
    rw [run_append]
    exact resolve_congr (hs.frames_push_run_pop hb) n
  case keeps =>
    rw [run_append]
    exact keeps_run s more

end ScopeStack

end SolarFront
