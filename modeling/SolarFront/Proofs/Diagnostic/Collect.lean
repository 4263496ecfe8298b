import SolarFront.Compilation

/-!
# Collecting diagnostics

Collecting a list of diagnostics keeps the first of each code, primary span and message, and
sorts what is kept stably by where it starts. The checker collects its own diagnostics before
it hands them over, and the pipeline collects them again together with those of the lexer and
the parser.

Both steps commute with collecting a tail first. Keeping first occurrences of `l₁ ++ l₂` keeps
those of `l₁`, then those of `l₂` whose key `l₁` does not have; a stable sort is fixed by what
it holds at each position, in order, and sorting a tail first changes no such sequence. So a
compilation's diagnostics are those of the three stages, each in the order reported, collected
once: of each key only the first, ordered by position, ties in the order of the stages and of
reporting.
-/

set_option autoImplicit false
set_option linter.all false

namespace SolarFront

namespace Diagnostic

/-! ## Ordering by position -/

section Order

variable {a b c : Diagnostic}

theorem startsNoLater_total (a b : Diagnostic) : (startsNoLater a b || startsNoLater b a) = true := by
  unfold startsNoLater
  cases a.sortKey <;> cases b.sortKey <;> simp <;> omega

theorem startsNoLater_trans (a b c : Diagnostic) :
    startsNoLater a b = true → startsNoLater b c = true → startsNoLater a c = true := by
  unfold startsNoLater
  cases a.sortKey <;> cases b.sortKey <;> cases c.sortKey <;> simp <;> omega

theorem startsNoLater_refl (a : Diagnostic) : startsNoLater a a = true := by
  simpa using startsNoLater_total a a

theorem sortKey_eq_of_startsNoLater (h₁ : startsNoLater a b = true) (h₂ : startsNoLater b a = true) :
    a.sortKey = b.sortKey := by
  unfold startsNoLater at h₁ h₂
  cases ha : a.sortKey <;> cases hb : b.sortKey <;> simp_all <;> omega

theorem startsNoLater_of_sortKey_eq (h : a.sortKey = b.sortKey) : startsNoLater a b = true := by
  unfold startsNoLater
  rw [h]
  exact startsNoLater_refl b

end Order

/-- Diagnostics starting at one place are sorted among themselves, whatever their order. -/
theorem pairwise_startsNoLater_filter (l : List Diagnostic) (k : Option Nat) :
    (l.filter (·.sortKey == k)).Pairwise (fun a b => startsNoLater a b = true) := by
  apply List.pairwise_of_forall_mem_list
  intro a ha b hb
  simp only [List.mem_filter, beq_iff_eq] at ha hb
  exact startsNoLater_of_sortKey_eq (ha.2.trans hb.2.symm)

/-- Sorting is stable: the diagnostics starting at one place keep the order they came in. -/
theorem filter_mergeSort (l : List Diagnostic) (k : Option Nat) :
    (l.mergeSort startsNoLater).filter (·.sortKey == k) = l.filter (·.sortKey == k) := by
  have hsub : List.Sublist (l.filter (·.sortKey == k)) (l.mergeSort startsNoLater) :=
    List.sublist_mergeSort startsNoLater_trans startsNoLater_total
      (pairwise_startsNoLater_filter l k) (List.filter_sublist)
  have hfilter : List.Sublist (l.filter (·.sortKey == k))
      ((l.mergeSort startsNoLater).filter (·.sortKey == k)) := by
    simpa [List.filter_filter] using hsub.filter (·.sortKey == k)
  have hlength := ((List.mergeSort_perm l startsNoLater).filter (·.sortKey == k)).length_eq
  exact (hfilter.eq_of_length hlength.symm).symm

/-- A list sorted by position is fixed by the diagnostics it holds at each position, in order. -/
theorem eq_of_sorted_of_filter : ∀ {l₁ l₂ : List Diagnostic},
    l₁.Pairwise (fun a b => startsNoLater a b = true) →
    l₂.Pairwise (fun a b => startsNoLater a b = true) →
    (∀ k, l₁.filter (·.sortKey == k) = l₂.filter (·.sortKey == k)) → l₁ = l₂
  | [], [], _, _, _ => rfl
  | [], b :: _, _, _, h => by simpa using h b.sortKey
  | a :: _, [], _, _, h => by simpa using h a.sortKey
  | a :: l₁, b :: l₂, h₁, h₂, h => by
    -- each head lies in the other list, at or after that list's head
    have hb : b ∈ a :: l₁ := by
      have : b ∈ (b :: l₂).filter (·.sortKey == b.sortKey) := by simp
      rw [← h] at this
      exact (List.mem_filter.mp this).1
    have ha : a ∈ b :: l₂ := by
      have : a ∈ (a :: l₁).filter (·.sortKey == a.sortKey) := by simp
      rw [h] at this
      exact (List.mem_filter.mp this).1
    have hab : startsNoLater a b = true := by
      rcases List.mem_cons.mp hb with rfl | hb
      · exact startsNoLater_refl _
      · exact List.rel_of_pairwise_cons h₁ hb
    have hba : startsNoLater b a = true := by
      rcases List.mem_cons.mp ha with rfl | ha
      · exact startsNoLater_refl _
      · exact List.rel_of_pairwise_cons h₂ ha
    have hkey := sortKey_eq_of_startsNoLater hab hba
    have hhead := h a.sortKey
    simp only [List.filter_cons, beq_self_eq_true, ite_true, hkey, List.cons.injEq] at hhead
    obtain ⟨rfl, -⟩ := hhead
    congr 1
    refine eq_of_sorted_of_filter h₁.of_cons h₂.of_cons fun k => ?_
    have hk := h k
    by_cases hak : a.sortKey = k <;> simp_all [List.filter_cons]

/-- Sorting gives the same list whenever the diagnostics at each position come in the same
order. -/
theorem mergeSort_eq_of_filter {l₁ l₂ : List Diagnostic}
    (h : ∀ k, l₁.filter (·.sortKey == k) = l₂.filter (·.sortKey == k)) :
    l₁.mergeSort startsNoLater = l₂.mergeSort startsNoLater := by
  apply eq_of_sorted_of_filter
    (List.pairwise_mergeSort startsNoLater_trans startsNoLater_total l₁)
    (List.pairwise_mergeSort startsNoLater_trans startsNoLater_total l₂)
  intro k
  rw [filter_mergeSort, filter_mergeSort, h]

/-! ## First occurrences -/

/-- Keeping first occurrences after some keys were seen is keeping first occurrences, then
dropping the keys seen. -/
theorem dedupFrom_eq_filter (seen : List (Code × Option Span × String)) (l : List Diagnostic) :
    dedupFrom seen l = (dedup l).filter (fun d => !seen.contains d.key) := by
  induction l generalizing seen with
  | nil => rfl
  | cons d ds ih =>
    have hd : dedup (d :: ds) = d :: (dedup ds).filter (fun e => !([d.key].contains e.key)) := by
      show dedupFrom [] (d :: ds) = _
      simp only [dedupFrom, List.contains_nil, Bool.false_eq_true, ite_false, ih]
    rw [hd, dedupFrom]
    by_cases hseen : seen.contains d.key = true
    · simp only [hseen, ite_true, ih, List.filter_cons, Bool.not_true, Bool.false_eq_true,
        ite_false, List.filter_filter]
      apply List.filter_congr
      intro e _
      by_cases he : e.key = d.key <;> simp_all
    · simp only [hseen, Bool.false_eq_true, ite_false, ih, List.filter_cons, Bool.not_false,
        ite_true, List.filter_filter, List.cons.injEq, true_and]
      apply List.filter_congr
      intro e _
      simp [Bool.and_comm]

/-- The first occurrences of a list headed by `d`: `d`, then those of the rest with another key. -/
theorem dedup_cons (d : Diagnostic) (ds : List Diagnostic) :
    dedup (d :: ds) = d :: (dedup ds).filter (fun e => e.key != d.key) := by
  have h : dedup (d :: ds) = d :: dedupFrom [d.key] ds := rfl
  rw [h, dedupFrom_eq_filter]
  congr 1
  apply List.filter_congr
  intro e _
  by_cases he : e.key = d.key <;> simp [he]

theorem dedup_sublist (l : List Diagnostic) : List.Sublist (dedup l) l := by
  induction l with
  | nil => exact List.Sublist.slnil
  | cons d ds ih =>
    rw [dedup_cons]
    exact (List.filter_sublist.trans ih).cons_cons d

/-- No two first occurrences share a key. -/
theorem pairwise_dedup (l : List Diagnostic) : (dedup l).Pairwise (fun a b => a.key ≠ b.key) := by
  induction l with
  | nil => exact List.Pairwise.nil
  | cons d ds ih =>
    rw [dedup_cons]
    refine List.pairwise_cons.mpr ⟨fun e he => ?_, ih.filter _⟩
    have := (List.mem_filter.mp he).2
    simp only [bne_iff_ne, ne_eq] at this
    exact Ne.symm this

/-- A list without two diagnostics of one key is its own first occurrences. -/
theorem dedup_of_pairwise {l : List Diagnostic} (h : l.Pairwise (fun a b => a.key ≠ b.key)) :
    dedup l = l := by
  induction l with
  | nil => rfl
  | cons d ds ih =>
    obtain ⟨hd, hds⟩ := List.pairwise_cons.mp h
    rw [dedup_cons, ih hds]
    congr 1
    rw [List.filter_eq_self]
    intro e he
    simpa using (hd e he).symm

/-- Each first occurrence is the first diagnostic of its key. -/
theorem find?_of_mem_dedup {l : List Diagnostic} {d : Diagnostic} (h : d ∈ dedup l) :
    l.find? (·.key == d.key) = some d := by
  induction l with
  | nil => simp [dedup, dedupFrom] at h
  | cons e es ih =>
    rw [dedup_cons] at h
    rcases List.mem_cons.mp h with rfl | h
    · simp
    · obtain ⟨hmem, hne⟩ := List.mem_filter.mp h
      have hne' : (e.key == d.key) = false := by
        have : d.key ≠ e.key := by simpa using hne
        simpa using this.symm
      rw [List.find?_cons, hne']
      exact ih hmem

/-- Every key of a list has its first occurrence kept. -/
theorem exists_mem_dedup {l : List Diagnostic} {d : Diagnostic} (h : d ∈ l) :
    ∃ e ∈ dedup l, e.key = d.key := by
  induction l with
  | nil => simp at h
  | cons e es ih =>
    rw [dedup_cons]
    by_cases hkey : e.key = d.key
    · exact ⟨e, List.mem_cons_self, hkey⟩
    · rcases List.mem_cons.mp h with rfl | h
      · exact absurd rfl hkey
      · obtain ⟨f, hf, hfkey⟩ := ih h
        refine ⟨f, List.mem_cons_of_mem _ (List.mem_filter.mpr ⟨hf, ?_⟩), hfkey⟩
        rw [hfkey]
        simpa using Ne.symm hkey

/-- First occurrences of a joined list: those of the front, then those of the back whose key
the front does not have. -/
theorem dedup_append (l₁ l₂ : List Diagnostic) :
    dedup (l₁ ++ l₂) = dedup l₁ ++ (dedup l₂).filter (fun d => !(l₁.map key).contains d.key) := by
  induction l₁ with
  | nil =>
    have hnil : dedup ([] : List Diagnostic) = [] := rfl
    rw [List.nil_append, hnil, List.nil_append]
    exact (List.filter_eq_self.mpr fun _ _ => rfl).symm
  | cons d ds ih =>
    rw [List.cons_append, dedup_cons, ih, dedup_cons, List.filter_append, List.filter_filter,
      List.cons_append]
    congr 2
    apply List.filter_congr
    intro e _
    by_cases he : e.key = d.key <;> simp [he]

/-! ## Collecting twice -/

/-- The kept diagnostics have distinct keys, in some order. -/
theorem pairwise_collect (l : List Diagnostic) : (collect l).Pairwise (fun a b => a.key ≠ b.key) :=
  (List.mergeSort_perm _ _).symm.pairwise (pairwise_dedup l) Ne.symm

theorem sorted_collect (l : List Diagnostic) :
    (collect l).Pairwise (fun a b => startsNoLater a b = true) :=
  List.pairwise_mergeSort startsNoLater_trans startsNoLater_total _

theorem mem_collect {l : List Diagnostic} {d : Diagnostic} : d ∈ collect l ↔ d ∈ dedup l :=
  List.mem_mergeSort

/-- The diagnostics kept at one position come in the order of the list collected. -/
theorem filter_collect_sublist (l : List Diagnostic) (k : Option Nat) :
    List.Sublist ((collect l).filter (·.sortKey == k)) l := by
  rw [collect, filter_mergeSort]
  exact List.filter_sublist.trans (dedup_sublist l)

/-- Collecting a tail first changes nothing: first occurrences of a tail already collected are
those of the tail, and its order at each position is the tail's. -/
theorem collect_append_collect (l₁ l₂ : List Diagnostic) :
    collect (l₁ ++ collect l₂) = collect (l₁ ++ l₂) := by
  have hdistinct := pairwise_collect l₂
  have hdedup : dedup (collect l₂) = collect l₂ := dedup_of_pairwise hdistinct
  unfold collect
  rw [dedup_append, dedup_append, ← collect, hdedup]
  apply mergeSort_eq_of_filter
  intro k
  rw [List.filter_append, List.filter_append]
  congr 1
  -- what the tail holds at position `k`, sorted or not, less the keys of the front
  have hswap : ∀ m : List Diagnostic,
      (m.filter fun d => !(l₁.map key).contains d.key).filter (·.sortKey == k) =
        (m.filter (·.sortKey == k)).filter fun d => !(l₁.map key).contains d.key := by
    intro m
    simp only [List.filter_filter, Bool.and_comm]
  rw [hswap, hswap, collect, filter_mergeSort]

end Diagnostic

namespace Compilation

/-- What the three stages of a compilation report, each in the order found. -/
def reported (source : String) (allowReserved : Bool) : List Diagnostic :=
  (lex source allowReserved).errors.map (·.toDiagnostic) ++
    (parse (lex source allowReserved).tokens).errors.map (·.toDiagnostic) ++
    ((parse (lex source allowReserved).tokens).module.check
      (parse (lex source allowReserved).tokens).nodeCount).diagnostics.toList

/-- The diagnostics of a compilation are what its stages report, collected once, although the
checker's pass through collection twice. -/
theorem diagnostics_eq_collect (source : String) (allowReserved : Bool) (sourceId : Nat) :
    (run source allowReserved sourceId).diagnostics =
      Diagnostic.collect (reported source allowReserved) := by
  simp only [run, reported, CheckState.flushed]
  exact Diagnostic.collect_append_collect _ _

/-- A compilation's diagnostics: the first diagnostic of each code, primary span and message
among those the lexer, the parser and the checker report, stably sorted by where they start
(those without a position first). So no key occurs twice, the list is ordered by position, the
diagnostics at one position come in stage order and then report order, and the compilation has
errors exactly when one of them is an error. -/
theorem diagnostics_collected (source : String) (allowReserved : Bool) (sourceId : Nat) :
    (run source allowReserved sourceId).diagnostics =
      (Diagnostic.dedup (reported source allowReserved)).mergeSort Diagnostic.startsNoLater ∧
    (∀ d ∈ (run source allowReserved sourceId).diagnostics,
      (reported source allowReserved).find? (·.key == d.key) = some d) ∧
    (∀ d ∈ reported source allowReserved,
      ∃ e ∈ (run source allowReserved sourceId).diagnostics, e.key = d.key) ∧
    (run source allowReserved sourceId).diagnostics.Pairwise (fun a b => a.key ≠ b.key) ∧
    (run source allowReserved sourceId).diagnostics.Pairwise
      (fun a b => Diagnostic.startsNoLater a b = true) ∧
    (∀ k, List.Sublist ((run source allowReserved sourceId).diagnostics.filter (·.sortKey == k))
      (reported source allowReserved)) ∧
    ((run source allowReserved sourceId).hasErrors = true ↔
      ∃ d ∈ (run source allowReserved sourceId).diagnostics, d.isError = true) := by
  rw [diagnostics_eq_collect]
  refine ⟨rfl, fun d hd => ?_, fun d hd => ?_, Diagnostic.pairwise_collect _,
    Diagnostic.sorted_collect _, Diagnostic.filter_collect_sublist _, ?_⟩
  · exact Diagnostic.find?_of_mem_dedup (Diagnostic.mem_collect.mp hd)
  · obtain ⟨e, he, hkey⟩ := Diagnostic.exists_mem_dedup hd
    exact ⟨e, Diagnostic.mem_collect.mpr he, hkey⟩
  · rw [hasErrors, diagnostics_eq_collect, List.any_eq_true]

end Compilation

end SolarFront
