import Mathlib.Data.List.Induction

/-!
# Deadlines that are checked from time to time

In a history of events some events carry a reading of the clock and some arm a timer.  The deadline
of a timer is a fixed delay after the last reading before it was armed; it stands until the timer is
armed again or the clock has reached it (`ArmedFor`).  Nothing here supposes that the clock runs
forward.
-/

namespace Stm32Emulator.Deadline

variable {α : Type*} (time : α → Option ℕ) (arms : α → Prop) (delay : ℕ)

/-- The last reading of the clock, zero before the first. -/
def clock (as : List α) : ℕ := as.foldl (fun now a => (time a).getD now) 0

/-- The timer was armed with this deadline, has not been armed since, and no reading has reached the
deadline. -/
def ArmedFor (as : List α) (deadline : ℕ) : Prop :=
  ∃ (before : List α) (a : α) (after : List α), as = before ++ a :: after ∧ arms a ∧
    deadline = clock time before + delay ∧ (∀ b ∈ after, ¬ arms b) ∧
      ∀ b ∈ after, ∀ now, time b = some now → now < deadline

variable {time arms delay} {as : List α} {a : α} {deadline : ℕ}

@[simp] lemma clock_snoc : clock time (as ++ [a]) = (time a).getD (clock time as) := by
  simp [clock]

/-- Nothing is armed at the start. -/
lemma not_armedFor_nil : ¬ ArmedFor time arms delay [] deadline := by
  rintro ⟨before, a, after, h, -⟩
  simp at h

/-- The deadline of a history that is one event longer. -/
lemma armedFor_snoc_iff :
    ArmedFor time arms delay (as ++ [a]) deadline ↔
      (arms a ∧ deadline = clock time as + delay) ∨
        (ArmedFor time arms delay as deadline ∧ ¬ arms a ∧ ∀ now, time a = some now →
          now < deadline) := by
  constructor
  · rintro ⟨before, b, after, has, harms, hdeadline, hlater, hclock⟩
    rcases List.eq_nil_or_concat after with rfl | ⟨after', c, rfl⟩
    · obtain ⟨rfl, hab⟩ := List.append_inj' has rfl
      obtain rfl : a = b := by simpa using hab
      exact Or.inl ⟨harms, hdeadline⟩
    · have hsplit : as ++ [a] = (before ++ b :: after') ++ [c] := by
        rw [has]
        simp
      obtain ⟨rfl, hac⟩ := List.append_inj' hsplit rfl
      obtain rfl : a = c := by simpa using hac
      refine Or.inr ⟨⟨before, b, after', rfl, harms, hdeadline, ?_, ?_⟩, ?_, ?_⟩
      · intro x hx
        exact hlater x (by simp [hx])
      · intro x hx
        exact hclock x (by simp [hx])
      · exact hlater a (by simp)
      · exact hclock a (by simp)
  · rintro (⟨harms, hdeadline⟩
      | ⟨⟨before, b, after, rfl, harms, hdeadline, hlater, hclock⟩, hnot, hnow⟩)
    · exact ⟨as, a, [], rfl, harms, hdeadline, by simp, by simp⟩
    · refine ⟨before, b, after ++ [a], by simp, harms, hdeadline, ?_, ?_⟩
      · intro x hx
        rcases List.mem_append.mp hx with hx | hx
        · exact hlater x hx
        · rwa [List.mem_singleton.mp hx]
      · intro x hx
        rcases List.mem_append.mp hx with hx | hx
        · exact hclock x hx
        · rwa [List.mem_singleton.mp hx]

end Stm32Emulator.Deadline
