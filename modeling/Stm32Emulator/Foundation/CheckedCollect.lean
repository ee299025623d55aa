import Mathlib.Algebra.BigOperators.Group.List.Basic
import Mathlib.Algebra.Order.Ring.Nat

/-!
# Collecting lists that may be missing

A function that yields a list for each of some items, or fails, is applied to all of them
(`collectAll`). What such a collection yields is said by `Yields`: it has a result if a condition
holds, and its result is then the expected one, as far as `key` tells its elements apart.  There is
a rule for each way to put collections together.
-/

namespace Stm32Emulator

variable {α β γ ι ν : Type*}

/-- The lists for all items, one after the other.  It fails if there is an item without one. -/
def collectAll (f : α → Option (List β)) : List α → Option (List β)
  | [] => some []
  | x :: l => (f x).bind fun r => (collectAll f l).map fun rs => r ++ rs

/-- There is a result if and only if `fits` holds, and it is the expected one. -/
structure Yields (key : β → γ) (o : Option (List β)) (expected : List γ) (fits : Prop) : Prop where
  exists_of_fits : fits → ∃ r, o = some r
  fits_of_eq_some : ∀ {r}, o = some r → fits
  map_key : ∀ {r}, o = some r → r.map key = expected

namespace Yields

variable {key : β → γ}

lemma of_some (r : List β) : Yields key (some r) (r.map key) True :=
  ⟨fun _ => ⟨r, rfl⟩, fun _ => trivial, fun h => by rw [Option.some.inj h]⟩

lemma congr {o : Option (List β)} {expected expected' : List γ} {fits fits' : Prop}
    (h : Yields key o expected fits) (hexpected : expected = expected') (hfits : fits ↔ fits') :
    Yields key o expected' fits' :=
  ⟨fun hfits' => h.exists_of_fits (hfits.mpr hfits'), fun ho => hfits.mp (h.fits_of_eq_some ho),
    fun ho => (h.map_key ho).trans hexpected⟩

/-- One collection after another. -/
lemma append {o o' : Option (List β)} {expected expected' : List γ} {fits fits' : Prop}
    (h : Yields key o expected fits) (h' : Yields key o' expected' fits') :
    Yields key (o.bind fun r => o'.map fun r' => r ++ r') (expected ++ expected')
    (fits ∧ fits') := by
  have hparts : ∀ {rs}, (o.bind fun r => o'.map fun r' => r ++ r') = some rs →
      ∃ r r', o = some r ∧ o' = some r' ∧ r ++ r' = rs := by
    intro rs hrs
    obtain ⟨r, hr, hrs⟩ := Option.bind_eq_some_iff.mp hrs
    obtain ⟨r', hr', hrs⟩ := Option.map_eq_some_iff.mp hrs
    exact ⟨r, r', hr, hr', hrs⟩
  constructor
  · rintro ⟨hfits, hfits'⟩
    obtain ⟨r, hr⟩ := h.exists_of_fits hfits
    obtain ⟨r', hr'⟩ := h'.exists_of_fits hfits'
    exact ⟨r ++ r', by rw [hr, hr', Option.bind_some, Option.map_some]⟩
  · intro rs hrs
    obtain ⟨r, r', hr, hr', -⟩ := hparts hrs
    exact ⟨h.fits_of_eq_some hr, h'.fits_of_eq_some hr'⟩
  · intro rs hrs
    obtain ⟨r, r', hr, hr', rfl⟩ := hparts hrs
    rw [List.map_append, h.map_key hr, h'.map_key hr']

/-- A collection over a list. -/
lemma collectAll {f : α → Option (List β)} {expected : α → List γ} {fits : α → Prop} {l : List α}
    (h : ∀ x ∈ l, Yields key (f x) (expected x) (fits x)) :
    Yields key (collectAll f l) (l.flatMap expected) (∀ x ∈ l, fits x) := by
  induction l with
  | nil => exact (of_some []).congr rfl (by simp)
  | cons x l ih =>
    have hhead := h x List.mem_cons_self
    have htail := ih fun y hy => h y (List.mem_cons_of_mem x hy)
    exact (hhead.append htail).congr List.flatMap_cons.symm List.forall_mem_cons.symm

/-- A collection over a list that may be missing itself, with something else beside each item. -/
lemma collectAll_zip {key' : α → ι} {o : Option (List α)} {indexes : List ι} {fits : Prop}
    (h : Yields key' o indexes fits) {labels : List ν} (hlength : labels.length = indexes.length)
    {f : α × ν → Option (List β)} (expected : ι → List γ) (fits' : ι → Prop)
    (hf : ∀ x label, Yields key (f (x, label)) (expected (key' x)) (fits' (key' x))) :
    Yields key (o.bind fun l => Stm32Emulator.collectAll f (l.zip labels))
    (indexes.flatMap expected) (fits ∧ ∀ i ∈ indexes, fits' i) := by
  -- once the list is there, its items are those of the zip
  have hall : ∀ {l}, o = some l → Yields key (Stm32Emulator.collectAll f (l.zip labels))
      (indexes.flatMap expected) (∀ i ∈ indexes, fits' i) := by
    intro l ho
    have hkeys := h.map_key ho
    have hitems : (l.zip labels).map Prod.fst = l := by
      apply List.map_fst_zip
      rw [hlength, ← hkeys, List.length_map]
    have hitem : ∀ x ∈ l.zip labels, Yields key (f x) (expected (key' x.1)) (fits' (key' x.1)) :=
      fun x _ => hf x.1 x.2
    refine (collectAll hitem).congr ?_ ?_
    · have hindexes : indexes = (l.zip labels).map fun x => key' x.1 := by
        rw [← hkeys, ← hitems, List.map_map, hitems]
        rfl
      rw [hindexes, List.flatMap_map]
    · rw [← hkeys]
      nth_rewrite 2 [← hitems]
      simp only [List.forall_mem_map]
  constructor
  · rintro ⟨hfits, hfits'⟩
    obtain ⟨l, hl⟩ := h.exists_of_fits hfits
    rw [hl, Option.bind_some]
    exact (hall hl).exists_of_fits hfits'
  · intro r hr
    obtain ⟨l, hl, hr⟩ := Option.bind_eq_some_iff.mp hr
    exact ⟨h.fits_of_eq_some hl, (hall hl).fits_of_eq_some hr⟩
  · intro r hr
    obtain ⟨l, hl, hr⟩ := Option.bind_eq_some_iff.mp hr
    exact (hall hl).map_key hr

end Yields

/-! ## Collections with the same elements -/

section Weights

variable {f g : α → List γ} (weight : γ → ℕ) {l : List α}

lemma sum_flatMap_le (hle : ∀ x ∈ l, ((f x).map weight).sum ≤ ((g x).map weight).sum) :
    ((l.flatMap f).map weight).sum ≤ ((l.flatMap g).map weight).sum := by
  induction l with
  | nil => exact le_rfl
  | cons x l ih =>
    have hhead := hle x List.mem_cons_self
    have htail := ih fun y hy => hle y (List.mem_cons_of_mem x hy)
    rw [List.flatMap_cons, List.flatMap_cons, List.map_append, List.map_append, List.sum_append,
      List.sum_append]
    exact Nat.add_le_add hhead htail

/-- If nothing weighs less in the second collection, the two weigh the same only item by item. -/
lemma sum_eq_of_sum_flatMap_eq (hle : ∀ x ∈ l, ((f x).map weight).sum ≤ ((g x).map weight).sum)
    (hsum : ((l.flatMap f).map weight).sum = ((l.flatMap g).map weight).sum) :
    ∀ x ∈ l, ((f x).map weight).sum = ((g x).map weight).sum := by
  induction l with
  | nil => exact fun x hx => absurd hx List.not_mem_nil
  | cons x l ih =>
    have hhead := hle x List.mem_cons_self
    have hle' : ∀ y ∈ l, _ := fun y hy => hle y (List.mem_cons_of_mem x hy)
    have htail := sum_flatMap_le weight hle'
    rw [List.flatMap_cons, List.flatMap_cons, List.map_append, List.map_append, List.sum_append,
      List.sum_append] at hsum
    exact List.forall_mem_cons.mpr ⟨by omega, ih hle' (by omega)⟩

/-- **Two collections have the same elements if they agree on every item**, where what they yield
for an item can only differ by weighing more in the second one. -/
lemma perm_flatMap_iff (hle : ∀ x ∈ l, ((f x).map weight).sum ≤ ((g x).map weight).sum)
    (heq : ∀ x ∈ l, ((f x).map weight).sum = ((g x).map weight).sum → f x = g x) :
    (l.flatMap f).Perm (l.flatMap g) ↔ ∀ x ∈ l, f x = g x := by
  constructor
  · intro hperm x hx
    exact heq x hx (sum_eq_of_sum_flatMap_eq weight hle (hperm.map weight).sum_eq x hx)
  · intro h
    rw [List.flatMap_congr h]

end Weights

end Stm32Emulator
