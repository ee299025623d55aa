import Stm32Emulator.Engine.Unicorn
import Mathlib.Data.List.Range

/-!
# Exception frames

On exception entry the interrupted context is pushed on the selected stack: eight words, and with an
active floating-point context eighteen more.  `pushRegs` and `popRegs` walk the two register tables
in opposite directions.  Next to the new state they return a `FrameAccess`, which records what was
done: on which stack, in which shape, and at which word addresses.

The stack is described by two relations.  `WordsAt uc addr ws` says which words lie in memory from
an address upwards, and `Pushed c c' vs` what pushing the words `vs` does.  Since a push changes no
register, pushing a table is pushing the list of its values (`pushRegs_eq`), and popping a table is
writing the words found in memory to its registers, in order (`foldlM_popReg`).
-/

namespace Stm32Emulator

variable {U : Type} [UnicornEngine U]

/-! ## The model -/

/-- A stack pointer on its way through memory, with the word addresses it has accessed. -/
structure StackCursor (U : Type) where
  uc : U
  sp : ℕ
  accessed : List ℕ

/-- What pushing or popping a frame did: the stack, the shape, and the word addresses. -/
structure FrameAccess where
  /-- The frame lies on the process stack. -/
  psp : Bool
  /-- The frame is an extended one. -/
  extended : Bool
  /-- The addresses of the words accessed, in order. -/
  accessed : List ℕ
  deriving DecidableEq, Repr

def contextRegsExtended : List RegisterARM :=
  [.fpscr, .s 15, .s 14, .s 13, .s 12, .s 11, .s 10, .s 9, .s 8, .s 7, .s 6, .s 5, .s 4, .s 3,
    .s 2, .s 1, .s 0]

def contextRegs : List RegisterARM :=
  [.xpsr, .pc, .lr, .r12, .r3, .r2, .r1, .r0]

/-- Pushing a word.  A stack pointer below four, and an address that cannot be written, are
`none`. -/
def pushWord (c : StackCursor U) (v : U32) : Option (StackCursor U) :=
  if c.sp < 4 then
    none
  else
    (memWrite c.uc (c.sp - 4) (toLeBytes v)).map fun uc =>
      { uc := uc, sp := c.sp - 4, accessed := c.accessed ++ [c.sp - 4] }

def pushReg (c : StackCursor U) (reg : RegisterARM) : Option (StackCursor U) :=
  pushWord c (regRead c.uc reg)

/-- The context is pushed on the stack of `spsel`; an extended frame starts with a reserved word. -/
def pushRegs (uc : U) (spsel fpca : Bool) : Option (U × FrameAccess) := do
  let c : StackCursor U := ⟨uc, (regRead uc (spReg spsel)).toNat, []⟩
  let c ← if fpca then do
      let c ← pushWord c 0#32
      contextRegsExtended.foldlM pushReg c
    else
      some c
  let c ← contextRegs.foldlM pushReg c
  some (regWrite c.uc .sp (BitVec.ofNat 32 c.sp), ⟨spsel, fpca, c.accessed⟩)

/-- Popping a word; an address that cannot be read is `none`. -/
def popWord (c : StackCursor U) : Option (U32 × StackCursor U) :=
  (memReadU32 c.uc c.sp).map fun v =>
    (v, { c with sp := c.sp + 4, accessed := c.accessed ++ [c.sp] })

def popReg (c : StackCursor U) (reg : RegisterARM) : Option (StackCursor U) := do
  let (v, c) ← popWord c
  some { c with uc := regWrite c.uc reg v }

/-- The context is popped from the stack of `spsel`; the reserved word is skipped unread. -/
def popRegs (uc : U) (spsel fpca : Bool) : Option (U × FrameAccess) := do
  let c : StackCursor U := ⟨uc, (regRead uc (spReg spsel)).toNat, []⟩
  let c ← contextRegs.reverse.foldlM popReg c
  let c ← if fpca then do
      let c ← contextRegsExtended.reverse.foldlM popReg c
      some { c with sp := c.sp + 4 }
    else
      some c
  some (regWrite c.uc .sp (BitVec.ofNat 32 c.sp), ⟨spsel, fpca, c.accessed⟩)

/-! ## Words in memory -/

/-- Every byte from `lo` on, `n` of them, is mapped. -/
def Mapped (uc : U) (lo n : ℕ) : Prop :=
  ∀ a, lo ≤ a → a < lo + n → (memByte uc a).isSome

/-- The words `ws` lie in memory from `addr` upwards. -/
def WordsAt (uc : U) (addr : ℕ) : List U32 → Prop
  | [] => True
  | w :: ws => memReadU32 uc addr = some w ∧ WordsAt uc (addr + 4) ws

/-- The addresses of `n` consecutive words. -/
def wordAddrs (addr n : ℕ) : List ℕ := (List.range n).map fun k => addr + 4 * k

lemma wordAddrs_succ (addr n : ℕ) : wordAddrs addr (n + 1) = addr :: wordAddrs (addr + 4) n := by
  unfold wordAddrs
  rw [List.range_succ_eq_map, List.map_cons, List.map_map]
  congr 1
  apply List.map_congr_left
  intro k _
  simp only [Function.comp_apply]
  omega

lemma mem_wordAddrs {addr n a : ℕ} : a ∈ wordAddrs addr n ↔ ∃ k < n, a = addr + 4 * k := by
  simp [wordAddrs, eq_comm]

/-- Words in memory are a function of their bytes. -/
lemma WordsAt.congr {uc uc' : U} {addr : ℕ} {ws : List U32} (h : WordsAt uc addr ws)
    (hmem : ∀ a, addr ≤ a → a < addr + 4 * ws.length → memByte uc' a = memByte uc a) :
    WordsAt uc' addr ws := by
  induction ws generalizing addr with
  | nil => trivial
  | cons w ws ih =>
    obtain ⟨hw, hws⟩ := h
    rw [List.length_cons] at hmem
    refine ⟨?_, ih hws fun a hlo hhi => hmem a (by omega) (by omega)⟩
    rw [← hw]
    exact memReadU32_congr fun i hi => hmem _ (by omega) (by omega)

lemma WordsAt.append_left {uc : U} {addr : ℕ} {ws ws' : List U32}
    (h : WordsAt uc addr (ws ++ ws')) : WordsAt uc addr ws := by
  induction ws generalizing addr with
  | nil => trivial
  | cons w ws ih => exact ⟨h.1, ih h.2⟩

/-- Words that can be read lie in mapped memory. -/
lemma WordsAt.mapped {uc : U} {addr : ℕ} {ws : List U32} (h : WordsAt uc addr ws) :
    Mapped uc addr (4 * ws.length) := by
  induction ws generalizing addr with
  | nil =>
    intro a hlo hhi
    rw [List.length_nil] at hhi
    omega
  | cons w ws ih =>
    obtain ⟨hw, hws⟩ := h
    intro a hlo hhi
    rw [List.length_cons] at hhi
    rcases lt_or_ge a (addr + 4) with hlt | hge
    · obtain ⟨b₀, b₁, b₂, b₃, h₀, h₁, h₂, h₃, -⟩ := memReadU32_eq_some_iff.mp hw
      have ha : a = addr ∨ a = addr + 1 ∨ a = addr + 2 ∨ a = addr + 3 := by omega
      rcases ha with rfl | rfl | rfl | rfl
      · rw [h₀]; rfl
      · rw [h₁]; rfl
      · rw [h₂]; rfl
      · rw [h₃]; rfl
    · exact ih hws a hge (by omega)

/-- Mapped memory holds words. -/
lemma Mapped.exists_wordsAt {uc : U} {addr n : ℕ} (h : Mapped uc addr (4 * n)) :
    ∃ ws : List U32, ws.length = n ∧ WordsAt uc addr ws := by
  induction n generalizing addr with
  | zero => exact ⟨[], rfl, trivial⟩
  | succ n ih =>
    have hrest : Mapped uc (addr + 4) (4 * n) := fun a hlo hhi => h a (by omega) (by omega)
    obtain ⟨ws, hlen, hws⟩ := ih hrest
    obtain ⟨b₀, h₀⟩ := Option.isSome_iff_exists.mp (h addr (by omega) (by omega))
    obtain ⟨b₁, h₁⟩ := Option.isSome_iff_exists.mp (h (addr + 1) (by omega) (by omega))
    obtain ⟨b₂, h₂⟩ := Option.isSome_iff_exists.mp (h (addr + 2) (by omega) (by omega))
    obtain ⟨b₃, h₃⟩ := Option.isSome_iff_exists.mp (h (addr + 3) (by omega) (by omega))
    refine ⟨fromLeBytes b₀ b₁ b₂ b₃ :: ws, by rw [List.length_cons, hlen], ?_, hws⟩
    exact memReadU32_eq_some_iff.mpr ⟨b₀, b₁, b₂, b₃, h₀, h₁, h₂, h₃, rfl⟩

/-! ## Pushing -/

/-- Pushing the words `vs` leads from the cursor `c` to `c'`. -/
structure Pushed (c c' : StackCursor U) (vs : List U32) : Prop where
  /-- The stack grows down by four bytes a word. -/
  sp_eq : c'.sp + 4 * vs.length = c.sp
  /-- The words lie in memory, the last one lowest. -/
  words : WordsAt c'.uc c'.sp vs.reverse
  /-- No byte outside the pushed range changes. -/
  frame : ∀ a, ¬ (c'.sp ≤ a ∧ a < c.sp) → memByte c'.uc a = memByte c.uc a
  /-- No register changes. -/
  regs : ∀ r, regRead c'.uc r = regRead c.uc r
  /-- Exactly the words of the range are accessed. -/
  accessed : ∀ a, a ∈ c'.accessed ↔ a ∈ c.accessed ∨ a ∈ wordAddrs c'.sp vs.length

lemma pushWord_mapped {c : StackCursor U} (v : U32) (hsp : 4 ≤ c.sp)
    (hmap : Mapped c.uc (c.sp - 4) 4) : ∃ c', pushWord c v = some c' ∧ Pushed c c' [v] := by
  have hwrite : (memWrite c.uc (c.sp - 4) (toLeBytes v)).isSome := by
    apply UnicornEngine.memWrite_isSome
    intro i hi
    rw [length_toLeBytes] at hi
    exact hmap _ (by omega) (by omega)
  obtain ⟨uc', huc'⟩ := Option.isSome_iff_exists.mp hwrite
  refine ⟨⟨uc', c.sp - 4, c.accessed ++ [c.sp - 4]⟩, ?_, ?_, ?_, ?_, ?_, ?_⟩
  · unfold pushWord
    rw [if_neg (by omega), huc']
    rfl
  · simp only [List.length_singleton]
    omega
  · exact ⟨memReadU32_memWrite huc', trivial⟩
  · intro a ha
    dsimp only at ha ⊢
    rw [UnicornEngine.memByte_memWrite _ _ _ _ _ huc', length_toLeBytes, if_neg (by omega)]
  · intro r
    exact UnicornEngine.regRead_memWrite _ _ _ _ _ huc'
  · intro a
    simp [wordAddrs]

/-- Pushes compose. -/
lemma Pushed.trans {c c' c'' : StackCursor U} {vs ws : List U32} (h : Pushed c c' vs)
    (h' : Pushed c' c'' ws) : Pushed c c'' (vs ++ ws) := by
  have hsp := h.sp_eq
  have hsp' := h'.sp_eq
  refine ⟨?_, ?_, ?_, ?_, ?_⟩
  · rw [List.length_append]
    omega
  · rw [List.reverse_append]
    have happend : ∀ (xs ys : List U32) (addr : ℕ), WordsAt c''.uc addr xs →
        WordsAt c''.uc (addr + 4 * xs.length) ys → WordsAt c''.uc addr (xs ++ ys) := by
      intro xs
      induction xs with
      | nil => intro ys addr _ hys; simpa using hys
      | cons x xs ih =>
        intro ys addr hxs hys
        refine ⟨hxs.1, ih ys (addr + 4) hxs.2 ?_⟩
        rw [List.length_cons] at hys
        rwa [show addr + 4 + 4 * xs.length = addr + 4 * (xs.length + 1) by omega]
    refine happend _ _ _ h'.words ?_
    rw [List.length_reverse, hsp']
    exact h.words.congr fun a hlo _ => h'.frame a (by omega)
  · intro a ha
    rw [h'.frame a (by omega), h.frame a (by omega)]
  · intro r
    rw [h'.regs, h.regs]
  · intro a
    rw [h'.accessed, h.accessed, mem_wordAddrs, mem_wordAddrs, mem_wordAddrs, List.length_append]
    constructor
    · rintro ((ha | ⟨k, hk, rfl⟩) | ⟨k, hk, rfl⟩)
      · exact Or.inl ha
      · exact Or.inr ⟨ws.length + k, by omega, by omega⟩
      · exact Or.inr ⟨k, by omega, rfl⟩
    · rintro (ha | ⟨k, hk, rfl⟩)
      · exact Or.inl (Or.inl ha)
      · rcases lt_or_ge k ws.length with hlt | hge
        · exact Or.inr ⟨k, hlt, rfl⟩
        · exact Or.inl (Or.inr ⟨k - ws.length, by omega, by omega⟩)

/-- Pushing words on mapped memory succeeds. -/
lemma foldlM_pushWord {c : StackCursor U} (vs : List U32) (hsp : 4 * vs.length ≤ c.sp)
    (hmap : Mapped c.uc (c.sp - 4 * vs.length) (4 * vs.length)) :
    ∃ c', vs.foldlM pushWord c = some c' ∧ Pushed c c' vs := by
  induction vs generalizing c with
  | nil =>
    exact ⟨c, rfl, by simp, trivial, fun _ _ => rfl, fun _ => rfl, by simp [wordAddrs]⟩
  | cons v vs ih =>
    rw [List.length_cons] at hsp hmap
    obtain ⟨c₁, hc₁, hpush₁⟩ := pushWord_mapped (c := c) v (by omega)
      fun a hlo hhi => hmap a (by omega) (by omega)
    have hsp₁ := hpush₁.sp_eq
    rw [List.length_singleton] at hsp₁
    obtain ⟨c₂, hc₂, hpush₂⟩ := ih (c := c₁) (by omega) fun a hlo hhi => by
      rw [hpush₁.frame a (by omega)]
      exact hmap a (by omega) (by omega)
    refine ⟨c₂, ?_, hpush₁.trans hpush₂⟩
    rw [List.foldlM_cons, hc₁]
    exact hc₂

lemma regRead_pushWord {c c' : StackCursor U} {v : U32} (h : pushWord c v = some c')
    (r : RegisterARM) : regRead c'.uc r = regRead c.uc r := by
  unfold pushWord at h
  split at h
  · cases h
  · obtain ⟨uc', huc', rfl⟩ := Option.map_eq_some_iff.mp h
    exact UnicornEngine.regRead_memWrite _ _ _ _ _ huc'

lemma regRead_foldlM_pushWord {c c' : StackCursor U} {vs : List U32}
    (h : vs.foldlM pushWord c = some c') (r : RegisterARM) :
    regRead c'.uc r = regRead c.uc r := by
  induction vs generalizing c with
  | nil =>
    obtain rfl := Option.some.inj h
    rfl
  | cons v vs ih =>
    rw [List.foldlM_cons] at h
    obtain ⟨c₁, hc₁, hc'⟩ := Option.bind_eq_some_iff.mp h
    rw [ih hc', regRead_pushWord hc₁]

/-- Pushing a table of registers is pushing the list of their values. -/
lemma foldlM_pushReg {uc : U} {c : StackCursor U} (regs : List RegisterARM)
    (h : ∀ r, regRead c.uc r = regRead uc r) :
    regs.foldlM pushReg c = (regs.map (regRead uc)).foldlM pushWord c := by
  induction regs generalizing c with
  | nil => rfl
  | cons reg regs ih =>
    rw [List.foldlM_cons, List.map_cons, List.foldlM_cons]
    unfold pushReg
    rw [h reg]
    cases hpush : pushWord c (regRead uc reg) with
    | none => rfl
    | some c₁ => exact ih fun r => by rw [regRead_pushWord hpush, h]

/-- The words of a frame, in the order in which they are pushed. -/
def frameValues (uc : U) (fpca : Bool) : List U32 :=
  (if fpca then 0#32 :: contextRegsExtended.map (regRead uc) else [])
    ++ contextRegs.map (regRead uc)

/-- The number of words of a frame. -/
def frameLength (fpca : Bool) : ℕ := if fpca then 26 else 8

lemma length_frameValues (uc : U) (fpca : Bool) :
    (frameValues uc fpca).length = frameLength fpca := by
  cases fpca <;> rfl

/-- Pushing the context is pushing the words of the frame and writing `SP`. -/
lemma pushRegs_eq (uc : U) (spsel fpca : Bool) :
    pushRegs uc spsel fpca =
      ((frameValues uc fpca).foldlM pushWord
        ⟨uc, (regRead uc (spReg spsel)).toNat, []⟩).map fun c =>
        (regWrite c.uc .sp (BitVec.ofNat 32 c.sp), ⟨spsel, fpca, c.accessed⟩) := by
  unfold pushRegs frameValues
  cases fpca with
  | false =>
    simp only [Bool.false_eq_true, if_false, List.nil_append, Option.bind_eq_bind,
      Option.bind_some, Option.map_eq_bind, Function.comp_def]
    rw [foldlM_pushReg contextRegs fun _ => rfl]
  | true =>
    simp only [if_true, List.foldlM_append, List.foldlM_cons, Option.bind_eq_bind,
      Option.map_eq_bind, Function.comp_def, Option.bind_assoc]
    cases h₁ : pushWord (⟨uc, (regRead uc (spReg spsel)).toNat, []⟩ : StackCursor U) 0#32 with
    | none => rfl
    | some c₁ =>
      have hregs₁ : ∀ r, regRead c₁.uc r = regRead uc r := regRead_pushWord h₁
      rw [Option.bind_some, Option.bind_some, foldlM_pushReg contextRegsExtended hregs₁]
      cases h₂ : (contextRegsExtended.map (regRead uc)).foldlM pushWord c₁ with
      | none => rfl
      | some c₂ =>
        have hregs₂ : ∀ r, regRead c₂.uc r = regRead uc r := fun r => by
          rw [regRead_foldlM_pushWord h₂, hregs₁]
        rw [Option.bind_some, Option.bind_some, foldlM_pushReg contextRegs hregs₂]

/-! ## Popping -/

/-- Writing registers in order. -/
def writeRegs (uc : U) (l : List (RegisterARM × U32)) : U :=
  l.foldl (fun uc p => regWrite uc p.1 p.2) uc

/-- Writing registers changes no register that none of them affects. -/
lemma regRead_writeRegs_of_not_affects (uc : U) (l : List (RegisterARM × U32)) {r : RegisterARM}
    (h : ∀ p ∈ l, p.1.affects r = false) : regRead (writeRegs uc l) r = regRead uc r := by
  induction l generalizing uc with
  | nil => rfl
  | cons p l ih =>
    change regRead (writeRegs (regWrite uc p.1 p.2) l) r = _
    rw [ih _ fun q hq => h q (List.mem_cons_of_mem _ hq),
      UnicornEngine.regRead_regWrite_of_not_affects _ _ _ _ (h p List.mem_cons_self)]

/-- Writing back the values of a table in which no later register affects an earlier one restores
every register of the table. -/
lemma regRead_writeRegs_restore (uc saved : U) {regs : List RegisterARM}
    (hpair : regs.Pairwise fun r r' => r'.affects r = false) {r : RegisterARM} (hr : r ∈ regs) :
    regRead (writeRegs uc (regs.map fun r => (r, regRead saved r))) r = regRead saved r := by
  induction regs generalizing uc with
  | nil => cases hr
  | cons reg regs ih =>
    obtain ⟨hhead, htail⟩ := List.pairwise_cons.mp hpair
    change regRead (writeRegs (regWrite uc reg (regRead saved reg)) _) r = _
    rcases List.mem_cons.mp hr with rfl | hr
    · rw [regRead_writeRegs_of_not_affects]
      · exact UnicornEngine.regRead_restore _ _ _
      · intro p hp
        obtain ⟨r', hr', rfl⟩ := List.mem_map.mp hp
        exact hhead r' hr'
    · exact ih _ htail hr

/-- Popping a table is writing the words found in memory to its registers. -/
lemma foldlM_popReg {c : StackCursor U} {regs : List RegisterARM} {ws : List U32}
    (hlen : ws.length = regs.length) (hws : WordsAt c.uc c.sp ws) :
    regs.foldlM popReg c =
      some ⟨writeRegs c.uc (regs.zip ws), c.sp + 4 * regs.length,
        c.accessed ++ wordAddrs c.sp regs.length⟩ := by
  induction regs generalizing c ws with
  | nil => simp [writeRegs, wordAddrs]
  | cons reg regs ih =>
    cases ws with
    | nil => cases hlen
    | cons w ws =>
      obtain ⟨hw, hws⟩ := hws
      have hpop : popReg c reg =
          some ⟨regWrite c.uc reg w, c.sp + 4, c.accessed ++ [c.sp]⟩ := by
        simp [popReg, popWord, hw]
      have hrest : WordsAt (regWrite c.uc reg w) (c.sp + 4) ws :=
        hws.congr fun _ _ _ => UnicornEngine.memByte_regWrite _ _ _ _
      rw [List.foldlM_cons, hpop, Option.bind_eq_bind, Option.bind_some,
        ih (by simpa using hlen) hrest]
      simp only [List.zip_cons_cons, List.length_cons, wordAddrs_succ, List.append_assoc,
        List.singleton_append, Option.some.injEq, StackCursor.mk.injEq, and_true]
      exact ⟨rfl, by omega⟩

/-- The registers of a frame, in the order in which they are popped. -/
def frameRegs (fpca : Bool) : List RegisterARM :=
  contextRegs.reverse ++ if fpca then contextRegsExtended.reverse else []

/-- Popping the context from memory that holds words. -/
lemma popRegs_eq {uc : U} {spsel fpca : Bool} {ws : List U32}
    (hlen : ws.length = (frameRegs fpca).length)
    (hws : WordsAt uc (regRead uc (spReg spsel)).toNat ws) :
    popRegs uc spsel fpca =
      some (regWrite (writeRegs uc ((frameRegs fpca).zip ws)) .sp
          (BitVec.ofNat 32 ((regRead uc (spReg spsel)).toNat + 4 * frameLength fpca)),
        ⟨spsel, fpca, wordAddrs (regRead uc (spReg spsel)).toNat (frameRegs fpca).length⟩) := by
  have hpop := foldlM_popReg (c := ⟨uc, (regRead uc (spReg spsel)).toNat, []⟩) hlen hws
  unfold popRegs
  cases fpca with
  | false =>
    simp only [frameRegs, Bool.false_eq_true, if_false, List.append_nil] at hpop ⊢
    simp only [hpop, Option.bind_eq_bind, Option.bind_some, List.nil_append]
    rfl
  | true =>
    simp only [frameRegs, if_true, List.foldlM_append, Option.bind_eq_bind] at hpop ⊢
    obtain ⟨c₁, hc₁, hc₂⟩ := Option.bind_eq_some_iff.mp hpop
    simp only [hc₁, hc₂, Option.bind_some, List.nil_append]
    rfl

/-- Popping the context from mapped memory succeeds. -/
lemma popRegs_isSome {uc : U} {spsel fpca : Bool}
    (h : Mapped uc (regRead uc (spReg spsel)).toNat (4 * (frameRegs fpca).length)) :
    (popRegs uc spsel fpca).isSome := by
  obtain ⟨ws, hlen, hws⟩ := h.exists_wordsAt
  rw [popRegs_eq hlen hws]
  rfl

/-- A register that no popped register affects keeps its value. -/
lemma regRead_foldlM_popReg {c c' : StackCursor U} {regs : List RegisterARM} {r : RegisterARM}
    (h : regs.foldlM popReg c = some c') (hr : ∀ r' ∈ regs, r'.affects r = false) :
    regRead c'.uc r = regRead c.uc r := by
  induction regs generalizing c with
  | nil =>
    obtain rfl := Option.some.inj h
    rfl
  | cons reg regs ih =>
    rw [List.foldlM_cons] at h
    obtain ⟨c₁, hc₁, hc'⟩ := Option.bind_eq_some_iff.mp h
    rw [ih hc' fun r' hr' => hr r' (List.mem_cons_of_mem _ hr')]
    obtain ⟨⟨v, c₂⟩, hpop, hc₁⟩ := Option.bind_eq_some_iff.mp hc₁
    obtain ⟨w, -, hw⟩ := Option.map_eq_some_iff.mp hpop
    obtain ⟨rfl, rfl⟩ := Prod.mk.inj hw
    obtain rfl := Option.some.inj hc₁
    exact UnicornEngine.regRead_regWrite_of_not_affects _ _ _ _ (hr reg List.mem_cons_self)

/-- Popping the context leaves `CONTROL`, and says which frame it popped. -/
lemma popRegs_frame {uc uc' : U} {spsel fpca : Bool} {frame : FrameAccess}
    (h : popRegs uc spsel fpca = some (uc', frame)) :
    frame.psp = spsel ∧ frame.extended = fpca ∧ regRead uc' .control = regRead uc .control := by
  unfold popRegs at h
  obtain ⟨c₁, hc₁, h⟩ := Option.bind_eq_some_iff.mp h
  have hcontrol₁ := regRead_foldlM_popReg (r := .control) hc₁ (by decide)
  cases fpca with
  | false =>
    cases h
    exact ⟨rfl, rfl, (regRead_control_regWrite _ rfl).trans hcontrol₁⟩
  | true =>
    simp only [if_true, Option.bind_eq_bind, Option.bind_some] at h
    obtain ⟨c₃, hc₃, h⟩ := Option.bind_eq_some_iff.mp h
    have hcontrol₃ := regRead_foldlM_popReg (r := .control) hc₃ (by decide)
    cases h
    exact ⟨rfl, rfl, (regRead_control_regWrite _ rfl).trans (hcontrol₃.trans hcontrol₁)⟩

end Stm32Emulator
