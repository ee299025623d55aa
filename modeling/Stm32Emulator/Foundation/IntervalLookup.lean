import Mathlib.Order.Basic
import Mathlib.Data.List.Basic
import Mathlib.Data.List.Sort
import Mathlib.Order.Defs.LinearOrder

/-!
# Looking a key up among intervals

A list of items, each with a lower end `lo` and an upper end `hi`, is sorted by lower ends and
searched by bisection.  `BinarySearch` is the contract of the search: which of several equal keys it
finds is left open.  `lookup` takes the last item that starts at or before the key, and accepts it
if it reaches the key.  Where the intervals are disjoint the result does not depend on the search.
-/

namespace Stm32Emulator

/-! ## Searching a sorted list -/

/-- A search of a sorted list finds a place of the key, or the place at which to insert it. -/
structure BinarySearch (K : Type*) [LinearOrder K] where
  search : List K → K → Except ℕ ℕ
  getElem?_of_ok : ∀ {keys k i}, keys.Pairwise (· ≤ ·) → search keys k = .ok i → keys[i]? = some k
  lt_of_error : ∀ {keys k i j key}, keys.Pairwise (· ≤ ·) → search keys k = .error i → j < i →
    keys[j]? = some key → key < k
  gt_of_error : ∀ {keys k i j key}, keys.Pairwise (· ≤ ·) → search keys k = .error i → i ≤ j →
    keys[j]? = some key → k < key
  le_of_error : ∀ {keys k i}, keys.Pairwise (· ≤ ·) → search keys k = .error i → i ≤ keys.length

section Sorted

variable {K : Type*} [LinearOrder K]

/-- A later element of a sorted list is not smaller. -/
lemma le_of_pairwise_of_lt {keys : List K} (hsorted : keys.Pairwise (· ≤ ·)) {i j : ℕ} {x y : K}
    (hij : i < j) (hx : keys[i]? = some x) (hy : keys[j]? = some y) : x ≤ y := by
  obtain ⟨hi, rfl⟩ := List.getElem?_eq_some_iff.mp hx
  obtain ⟨hj, rfl⟩ := List.getElem?_eq_some_iff.mp hy
  exact List.pairwise_iff_getElem.mp hsorted i j hi hj hij

/-- The search that goes through the list from its start. -/
def linearSearch (keys : List K) (k : K) : Except ℕ ℕ :=
  match keys with
  | [] => .error 0
  | key :: keys =>
    if key < k then
      match linearSearch keys k with
      | .ok i => .ok (i + 1)
      | .error i => .error (i + 1)
    else if key = k then .ok 0
    else .error 0

lemma getElem?_of_linearSearch_ok {keys : List K} {k : K} {i : ℕ}
    (h : linearSearch keys k = .ok i) :
    keys[i]? = some k := by
  induction keys generalizing i with
  | nil => simp [linearSearch] at h
  | cons key keys ih =>
    unfold linearSearch at h
    split_ifs at h with hlt heq
    · cases hrest : linearSearch keys k with
      | ok j =>
        rw [hrest] at h
        obtain rfl : j + 1 = i := by simpa using h
        simpa using ih hrest
      | error j => simp [hrest] at h
    · obtain rfl : 0 = i := by simpa using h
      simp [heq]

/-- A failed search tells apart the smaller and the larger keys. -/
lemma compare_of_linearSearch_error {keys : List K} {k : K} {i : ℕ}
    (hsorted : keys.Pairwise (· ≤ ·)) (h : linearSearch keys k = .error i) :
    i ≤ keys.length ∧ (∀ j key, j < i → keys[j]? = some key → key < k) ∧
      ∀ j key, i ≤ j → keys[j]? = some key → k < key := by
  induction keys generalizing i with
  | nil =>
    obtain rfl : 0 = i := by simpa [linearSearch] using h
    simp
  | cons key keys ih =>
    unfold linearSearch at h
    obtain ⟨hhead, htail⟩ := List.pairwise_cons.mp hsorted
    split_ifs at h with hlt heq
    · cases hrest : linearSearch keys k with
      | ok j => simp [hrest] at h
      | error j =>
        rw [hrest] at h
        obtain rfl : j + 1 = i := by simpa using h
        obtain ⟨hle, hsmall, hlarge⟩ := ih htail hrest
        refine ⟨by simpa using hle, ?_, ?_⟩
        · rintro (_ | n) x hn hx
          · obtain rfl : key = x := by simpa using hx
            exact hlt
          · exact hsmall n x (by omega) (by simpa using hx)
        · rintro (_ | n) x hn hx
          · omega
          · exact hlarge n x (by omega) (by simpa using hx)
    · obtain rfl : 0 = i := by simpa using h
      have hgt : k < key := lt_of_le_of_ne (not_lt.mp hlt) (Ne.symm heq)
      refine ⟨Nat.zero_le _, fun j x hj => absurd hj (Nat.not_lt_zero j), ?_⟩
      rintro (_ | n) x - hx
      · obtain rfl : key = x := by simpa using hx
        exact hgt
      · exact hgt.trans_le (hhead x (List.mem_of_getElem? (by simpa using hx)))

/-- The contract can be met. -/
def BinarySearch.linear : BinarySearch K where
  search := linearSearch
  getElem?_of_ok := fun _ h => getElem?_of_linearSearch_ok h
  lt_of_error := fun hsorted h => (compare_of_linearSearch_error hsorted h).2.1 _ _
  gt_of_error := fun hsorted h => (compare_of_linearSearch_error hsorted h).2.2 _ _
  le_of_error := fun hsorted h => (compare_of_linearSearch_error hsorted h).1

end Sorted

/-! ## Sorting intervals -/

section Sorting

variable {K α : Type*} [LinearOrder K]

/-- Sorting by a key; items of one key keep their order. -/
def sortByKey (key : α → K) (items : List α) : List α :=
  items.insertionSort fun x y => key x ≤ key y

/-- Each item and the one after it meet the condition. -/
def adjacentAll (ok : α → α → Bool) (items : List α) : Bool :=
  (items.zip items.tail).all fun (x, y) => ok x y

/-- Neither of two intervals reaches the other. -/
def Apart (lo hi : α → K) (x y : α) : Prop := hi x < lo y ∨ hi y < lo x

lemma Apart.comm {lo hi : α → K} {x y : α} : Apart lo hi x y ↔ Apart lo hi y x := or_comm

lemma perm_sortByKey (key : α → K) (items : List α) : (sortByKey key items).Perm items :=
  List.perm_insertionSort _ _

lemma mem_sortByKey {key : α → K} {items : List α} {x : α} : x ∈ sortByKey key items ↔ x ∈ items :=
  (perm_sortByKey key items).mem_iff

lemma pairwise_sortByKey (key : α → K) (items : List α) :
    (sortByKey key items).Pairwise fun x y => key x ≤ key y := by
  have : Std.Total fun x y : α => key x ≤ key y := ⟨fun x y => le_total (key x) (key y)⟩
  have : IsTrans α fun x y => key x ≤ key y := ⟨fun _ _ _ => le_trans⟩
  exact List.pairwise_insertionSort _ _

/-- A transitive condition on neighbours holds of every two items. -/
lemma pairwise_of_adjacentAll {ok : α → α → Bool} {items : List α}
    (htrans : ∀ x y z, y ∈ items → ok x y → ok y z → ok x z) (h : adjacentAll ok items) :
    items.Pairwise fun x y => ok x y := by
  induction items with
  | nil => exact List.Pairwise.nil
  | cons x items ih =>
    rcases items with _ | ⟨y, items⟩
    · exact List.pairwise_singleton _ _
    · simp only [adjacentAll, List.tail_cons, List.zip_cons_cons, List.all_cons,
        Bool.and_eq_true] at h
      have hrest := ih (fun x y z hy => htrans x y z (List.mem_cons_of_mem _ hy)) h.2
      refine List.pairwise_cons.mpr ⟨?_, hrest⟩
      intro z hz
      rcases List.mem_cons.mp hz with rfl | hz
      · exact h.1
      · have hy : y ∈ x :: y :: items := List.mem_cons_of_mem _ List.mem_cons_self
        exact htrans x y z hy h.1 ((List.pairwise_cons.mp hrest).1 z hz)

/-- Intervals in order are disjoint exactly when no two of them reach each other, in whatever order
they were given. -/
theorem pairwise_sortByKey_iff {lo hi : α → K} {items : List α}
    (hproper : ∀ x ∈ items, lo x ≤ hi x) :
    (sortByKey lo items).Pairwise (fun x y => hi x < lo y) ↔ items.Pairwise (Apart lo hi) := by
  have hperm := perm_sortByKey lo items
  rw [← hperm.pairwise_iff fun h => Apart.comm.mp h]
  constructor
  · exact fun h => h.imp Or.inl
  · intro h
    refine (h.and (pairwise_sortByKey lo items)).imp_of_mem ?_
    rintro x y hx hy ⟨hlt | hlt, hle⟩
    · exact hlt
    · -- the later item cannot end before the earlier one starts
      have hy' := hproper y (hperm.mem_iff.mp hy)
      exact absurd (hle.trans hy') (not_le.mpr hlt)

end Sorting

/-! ## Looking up an interval -/

section Lookup

variable {K α : Type*} [LinearOrder K] (lo hi : α → K)

/-- The place of the last item that starts at or before the key. -/
def lastStart (S : BinarySearch K) (items : List α) (k : K) : Option ℕ :=
  match S.search (items.map lo) k with
  | .ok i => some i
  | .error i => if i = 0 then none else some (i - 1)

/-- The place of the item found for the key. -/
def lookup (S : BinarySearch K) (items : List α) (k : K) : Option ℕ :=
  (lastStart lo S items k).filter fun i => (items[i]?).any fun x => k ≤ hi x

variable {lo hi} {S : BinarySearch K} {items : List α} {k : K} {i : ℕ}

/-- Which item is found: one that starts at the key, or the last one that starts before it. -/
lemma lastStart_spec (hsorted : (items.map lo).Pairwise (· ≤ ·))
    (h : lastStart lo S items k = some i) :
    ∃ x, items[i]? = some x ∧
      (lo x = k ∨ lo x < k ∧ ∀ j y, i < j → items[j]? = some y → k < lo y) := by
  unfold lastStart at h
  cases hsearch : S.search (items.map lo) k with
  | ok j =>
    obtain rfl : j = i := by simpa [hsearch] using h
    have hkey := S.getElem?_of_ok hsorted hsearch
    rw [List.getElem?_map] at hkey
    obtain ⟨x, hx, hlo⟩ := Option.map_eq_some_iff.mp hkey
    exact ⟨x, hx, Or.inl hlo⟩
  | error j =>
    rw [hsearch] at h
    dsimp only at h
    split_ifs at h with hj
    obtain rfl : j - 1 = i := by simpa using h
    have hle := S.le_of_error hsorted hsearch
    rw [List.length_map] at hle
    have hlt : j - 1 < items.length := by omega
    refine ⟨items[j - 1], List.getElem?_eq_getElem hlt, Or.inr ⟨?_, ?_⟩⟩
    · exact S.lt_of_error hsorted hsearch (j := j - 1) (by omega) (by simp [hlt])
    · intro n y hn hy
      exact S.gt_of_error hsorted hsearch (j := n) (by omega) (by simp [hy])

/-- An item that starts before the key is found exactly when no other one starts between. -/
lemma lastStart_eq_some_iff (hsorted : (items.map lo).Pairwise (· ≤ ·)) {x : α}
    (hx : items[i]? = some x) (hlt : lo x < k) :
    lastStart lo S items k = some i ↔ ∀ j y, i < j → items[j]? = some y → k < lo y := by
  constructor
  · intro h
    obtain ⟨x', hx', hspec⟩ := lastStart_spec hsorted h
    obtain rfl : x = x' := Option.some.inj (hx.symm.trans hx')
    rcases hspec with heq | ⟨-, hlater⟩
    · exact absurd heq hlt.ne
    · exact hlater
  · intro hlater
    have hmap : ∀ {n : ℕ} {y : α}, items[n]? = some y → (items.map lo)[n]? = some (lo y) := by
      intro n y hy
      rw [List.getElem?_map, hy, Option.map_some]
    have hnot : ∀ {n : ℕ}, (items.map lo)[n]? ≠ some k := by
      intro n hn
      rw [List.getElem?_map] at hn
      obtain ⟨y, hy, hlo⟩ := Option.map_eq_some_iff.mp hn
      rcases Nat.lt_trichotomy n i with hni | rfl | hni
      · exact absurd (le_of_pairwise_of_lt hsorted hni (hmap hy) (hmap hx))
          (by rw [hlo]; exact not_le.mpr hlt)
      · rw [Option.some.inj (hx.symm.trans hy), hlo] at hlt
        exact lt_irrefl k hlt
      · exact absurd hlo (hlater n y hni hy).ne'
    unfold lastStart
    cases hsearch : S.search (items.map lo) k with
    | ok n => exact absurd (S.getElem?_of_ok hsorted hsearch) hnot
    | error n =>
      have hni : i < n := by
        by_contra hcon
        exact absurd (S.gt_of_error hsorted hsearch (by omega) (hmap hx)) hlt.asymm
      have hn : n ≤ i + 1 := by
        by_contra hcon
        have hle := S.le_of_error hsorted hsearch
        rw [List.length_map] at hle
        have hsome : items[i + 1]? = some items[i + 1] := List.getElem?_eq_getElem (by omega)
        exact absurd (S.lt_of_error hsorted hsearch (by omega) (hmap hsome))
          (hlater _ _ (Nat.lt_succ_self i) hsome).asymm
      obtain rfl : n = i + 1 := by omega
      simp

lemma lookup_eq_some_iff {x : α} (hx : items[i]? = some x) :
    lookup lo hi S items k = some i ↔ lastStart lo S items k = some i ∧ k ≤ hi x := by
  unfold lookup
  rw [Option.filter_eq_some_iff, hx]
  simp

/-- The result depends on the ends of the intervals alone. -/
lemma lookup_congr {items' : List α} (hlo : items'.map lo = items.map lo)
    (hhi : items'.map hi = items.map hi) (k : K) :
    lookup lo hi S items' k = lookup lo hi S items k := by
  have hany : ∀ i : ℕ, ((items'[i]?).any fun x => k ≤ hi x) = (items[i]?).any fun x =>
      k ≤ hi x := by
    intro i
    have hget : (items'[i]?).map hi = (items[i]?).map hi := by
      rw [← List.getElem?_map, ← List.getElem?_map, hhi]
    cases h' : items'[i]? <;> cases h : items[i]? <;> simp_all
  unfold lookup lastStart
  rw [hlo]
  simp only [hany]

/-- What is found contains the key. -/
lemma mem_of_lookup (hsorted : (items.map lo).Pairwise (· ≤ ·))
    (h : lookup lo hi S items k = some i) :
    ∃ x, items[i]? = some x ∧ lo x ≤ k ∧ k ≤ hi x := by
  have hlast : lastStart lo S items k = some i := (Option.filter_eq_some_iff.mp h).1
  obtain ⟨x, hx, hspec⟩ := lastStart_spec hsorted hlast
  have hle : lo x ≤ k := hspec.elim (fun heq => heq.le) fun hlt => hlt.1.le
  exact ⟨x, hx, hle, ((lookup_eq_some_iff hx).mp h).2⟩

/-- Among disjoint intervals in order exactly the one around the key is found. -/
theorem lookup_eq_some_iff_of_disjoint (hproper : ∀ x ∈ items, lo x ≤ hi x)
    (hdisjoint : items.Pairwise fun x y => hi x < lo y) {x : α} (hx : items[i]? = some x) :
    lookup lo hi S items k = some i ↔ lo x ≤ k ∧ k ≤ hi x := by
  have hsorted : (items.map lo).Pairwise (· ≤ ·) := by
    rw [List.pairwise_map]
    exact hdisjoint.imp_of_mem fun hmem _ hlt => (hproper _ hmem).trans hlt.le
  have hapart : ∀ {m n : ℕ} {y z : α}, m < n → items[m]? = some y → items[n]? = some z →
      hi y < lo z := by
    intro m n y z hmn hy hz
    obtain ⟨hm, rfl⟩ := List.getElem?_eq_some_iff.mp hy
    obtain ⟨hn, rfl⟩ := List.getElem?_eq_some_iff.mp hz
    exact List.pairwise_iff_getElem.mp hdisjoint m n hm hn hmn
  have hmem : x ∈ items := List.mem_of_getElem? hx
  constructor
  · intro h
    obtain ⟨x', hx', hmem⟩ := mem_of_lookup hsorted h
    rwa [Option.some.inj (hx.symm.trans hx')]
  · rintro ⟨hlo, hhi⟩
    rw [lookup_eq_some_iff hx]
    refine ⟨?_, hhi⟩
    rcases hlo.lt_or_eq with hlt | heq
    · rw [lastStart_eq_some_iff hsorted hx hlt]
      exact fun j y hj hy => hhi.trans_lt (hapart hj hx hy)
    -- the key is a lower end: a search that stops elsewhere contradicts the order of the keys
    · unfold lastStart
      have hkey : (items.map lo)[i]? = some k := by
        rw [List.getElem?_map, hx, Option.map_some, heq]
      cases hsearch : S.search (items.map lo) k with
      | ok n =>
        have hn := S.getElem?_of_ok hsorted hsearch
        rw [List.getElem?_map] at hn
        obtain ⟨y, hy, hlo⟩ := Option.map_eq_some_iff.mp hn
        have hy' : y ∈ items := List.mem_of_getElem? hy
        rcases Nat.lt_trichotomy n i with hni | rfl | hni
        · exact absurd (hapart hni hy hx) (by rw [heq, ← hlo]; exact not_lt.mpr (hproper y hy'))
        · rfl
        · exact absurd (hapart hni hx hy) (by rw [hlo, ← heq]; exact not_lt.mpr (hproper x hmem))
      | error n =>
        rcases Nat.lt_or_ge i n with hin | hin
        · exact absurd (S.lt_of_error hsorted hsearch hin hkey) (lt_irrefl k)
        · exact absurd (S.gt_of_error hsorted hsearch hin hkey) (lt_irrefl k)

end Lookup

end Stm32Emulator
