import Stm32Emulator.Foundation.Run
import Stm32Emulator.Peripherals.Serial

/-!
# The flash on the serial bus

`SpiFlash` collects a command and its arguments from the bytes that are written, and streams a reply
into the bytes that are read.  Both go on side by side: a reply is streamed until the next command
is complete.

An access past the end of the content and a remainder by zero are `none`.  Neither is reached if the
flash is not empty (`SpiFlash.read_command`).
-/

namespace Stm32Emulator

inductive Command where
  | readData
  | readJedecId
  | readDeviceId
  deriving DecidableEq, Repr

def Command.tryFrom (v : U8) : Option Command :=
  if v = 0x03 then some .readData
  else if v = 0x9f then some .readJedecId
  else if v = 0x90 then some .readDeviceId
  else none

/-- The byte of a command. -/
def Command.code : Command → U8
  | .readData => 0x03
  | .readJedecId => 0x9f
  | .readDeviceId => 0x90

lemma tryFrom_eq_some_iff {v : U8} {cmd : Command} :
    Command.tryFrom v = some cmd ↔ v = cmd.code := by
  unfold Command.tryFrom
  constructor
  · intro h
    split_ifs at h with hread hjedec hdevice <;> cases h
    · exact hread
    · exact hjedec
    · exact hdevice
  · rintro rfl
    cases cmd <;> rfl

inductive Reply where
  | fileContent (addr : ℕ)
  | data (bytes : List U8)
  deriving DecidableEq, Repr

/-- The command that is being collected comes with its arguments so far. -/
structure SpiFlash where
  jedecId : U32
  size : ℕ
  content : List U8
  reply : Option Reply
  cmd : Option (Command × List U8)
  deriving DecidableEq, Repr

namespace SpiFlash

/-- The file is cut, or filled up with zeros, to the size of the flash. -/
def resize (file : List U8) (size : ℕ) : List U8 :=
  file.take size ++ List.replicate (size - file.length) 0

def new (jedecId : U32) (size : ℕ) (file : List U8) : SpiFlash :=
  ⟨jedecId, size, resize file size, none, none⟩

def checkedMod (a n : ℕ) : Option ℕ := if n = 0 then none else some (a % n)

def toBeBytes (x : U32) : List U8 := (toLeBytes x).reverse

/-- The address in the arguments of a read. -/
def address (a b c : U8) : ℕ := (fromLeBytes c b a 0).toNat

def deviceId : U32 := 0xaabbcc

def read (flash : SpiFlash) : Option (U8 × SpiFlash) :=
  match flash.reply with
  | some (.data []) => some (0, flash)
  | some (.data (b :: rest)) => some (b, { flash with reply := some (.data rest) })
  | some (.fileContent addr) =>
    flash.content[addr]?.bind fun c =>
      (checkedMod (addr + 1) flash.size).map fun addr =>
        (c, { flash with reply := some (.fileContent addr) })
  | none => some (0, flash)

/-- The reply to a command whose arguments are complete, if they are. -/
def tryProcessCommand (flash : SpiFlash) : Command → List U8 → Option (Option Reply)
  | .readJedecId, [] => some (some (.data (toBeBytes flash.jedecId)))
  | .readDeviceId, [] => some (some (.data (toBeBytes deviceId)))
  | .readData, [a, b, c] =>
    let addr := address a b c
    if flash.size ≤ addr then (checkedMod addr flash.size).map fun addr => some (.fileContent addr)
    else some (some (.fileContent addr))
  | _, _ => some none

/-- A command with its arguments so far: it is replied to, or kept. -/
def collect (flash : SpiFlash) (cmd : Command) (args : List U8) : Option SpiFlash :=
  (flash.tryProcessCommand cmd args).map fun reply =>
    match reply with
    | some reply => { flash with reply := some reply, cmd := none }
    | none => { flash with cmd := some (cmd, args) }

def write (flash : SpiFlash) (v : U8) : Option SpiFlash :=
  match flash.cmd with
  | some (cmd, args) => flash.collect cmd (args ++ [v])
  | none =>
    match Command.tryFrom v with
    | some cmd => flash.collect cmd []
    | none => some flash

/-! ## What holds of every flash -/

/-- The content is as long as the flash, the reply is inside of it, and only a read waits for
arguments. -/
structure Valid (flash : SpiFlash) : Prop where
  size_pos : 0 < flash.size
  length_content : flash.content.length = flash.size
  addr_lt : ∀ addr, flash.reply = some (.fileContent addr) → addr < flash.size
  collecting : ∀ cmd args, flash.cmd = some (cmd, args) → cmd = .readData ∧ args.length < 3

lemma length_resize (file : List U8) (size : ℕ) : (resize file size).length = size := by
  unfold resize
  rw [List.length_append, List.length_take, List.length_replicate]
  omega

lemma valid_new (jedecId : U32) {size : ℕ} (hsize : 0 < size) (file : List U8) :
    (new jedecId size file).Valid :=
  ⟨hsize, length_resize file size, nofun, nofun⟩

variable {flash flash' : SpiFlash} {v : U8}

/-- The address of a read is taken modulo the size. -/
lemma tryProcess_readData (hsize : 0 < flash.size) (a b c : U8) :
    flash.tryProcessCommand .readData [a, b, c] =
      some (some (.fileContent (address a b c % flash.size))) := by
  unfold tryProcessCommand checkedMod
  dsimp only
  rw [if_neg hsize.ne']
  split
  · rfl
  · next hlt => rw [Nat.mod_eq_of_lt (not_le.mp hlt)]

/-- A read of the reply. -/
lemma read_fileContent (h : flash.Valid) {addr : ℕ}
    (hreply : flash.reply = some (.fileContent addr)) :
    ∃ c, flash.content[addr]? = some c ∧
      flash.read =
        some (c, { flash with reply := some (.fileContent ((addr + 1) % flash.size)) }) := by
  have hlt : addr < flash.content.length := by
    rw [h.length_content]
    exact h.addr_lt addr hreply
  refine ⟨flash.content[addr], List.getElem?_eq_getElem hlt, ?_⟩
  unfold read checkedMod
  rw [hreply]
  dsimp only
  rw [List.getElem?_eq_getElem hlt, if_neg h.size_pos.ne']
  rfl

/-- A read moves the reply on, and nothing else. -/
lemma read_spec (h : flash.Valid) :
    ∃ c reply, flash.read = some (c, { flash with reply := reply }) ∧
    { flash with reply := reply }.Valid := by
  have hkeep : ∀ reply, (∀ addr, reply = some (Reply.fileContent addr) → addr < flash.size) →
      { flash with reply := reply }.Valid :=
        fun _ hlt => ⟨h.size_pos, h.length_content, hlt, h.collecting⟩
  cases hreply : flash.reply with
  | none =>
    refine ⟨0, none, ?_, hkeep _ nofun⟩
    unfold read
    rw [hreply]
    dsimp only
    rw [← hreply]
  | some reply =>
    cases reply with
    | data bytes =>
      cases bytes with
      | nil =>
        refine ⟨0, some (.data []), ?_, hkeep _ nofun⟩
        unfold read
        rw [hreply]
        dsimp only
        rw [← hreply]
      | cons b rest =>
        refine ⟨b, some (.data rest), ?_, hkeep _ nofun⟩
        unfold read
        rw [hreply]
    | fileContent addr =>
      obtain ⟨c, -, hread⟩ := read_fileContent h hreply
      refine ⟨c, _, hread, hkeep _ ?_⟩
      rintro addr' heq
      cases heq
      exact Nat.mod_lt _ h.size_pos

/-! ## What a write does -/

/-- The flash after a write. -/
inductive Written (flash : SpiFlash) (v : U8) : SpiFlash → Prop
  /-- No command is being collected and the byte is none. -/
  | ignored : flash.cmd = none → Command.tryFrom v = none → Written flash v flash
  | read : flash.cmd = none → v = 0x03 → Written flash v { flash with cmd := some (.readData, []) }
  | identity (bytes : List U8) : flash.cmd = none → v = 0x9f ∨ v = 0x90 →
      Written flash v { flash with reply := some (.data bytes), cmd := none }
  | argument (args : List U8) : flash.cmd = some (.readData, args) → args.length < 2 →
      Written flash v { flash with cmd := some (.readData, args ++ [v]) }
  | complete (a b : U8) : flash.cmd = some (.readData, [a, b]) →
      Written flash v { flash with
        reply := some (.fileContent (address a b v % flash.size)), cmd := none }

/-- Every write succeeds. -/
lemma exists_write (h : flash.Valid) (v : U8) :
    ∃ flash', flash.write v = some flash' ∧ Written flash v flash' := by
  unfold write
  cases hcmd : flash.cmd with
  | none =>
    cases htry : Command.tryFrom v with
    | none => exact ⟨flash, rfl, .ignored hcmd htry⟩
    | some cmd =>
      cases cmd with
      | readData =>
        exact ⟨_, rfl, .read hcmd (tryFrom_eq_some_iff.mp htry)⟩
      | readJedecId => exact ⟨_, rfl, .identity _ hcmd (Or.inl (tryFrom_eq_some_iff.mp htry))⟩
      | readDeviceId => exact ⟨_, rfl, .identity _ hcmd (Or.inr (tryFrom_eq_some_iff.mp htry))⟩
  | some collected =>
    obtain ⟨cmd, args⟩ := collected
    obtain ⟨rfl, hlength⟩ := h.collecting cmd args hcmd
    unfold collect
    match args, hlength with
    | [], _ => exact ⟨_, rfl, .argument [] hcmd (by decide)⟩
    | [a], _ => exact ⟨_, rfl, .argument [a] hcmd Nat.one_lt_two⟩
    | [a, b], _ =>
      refine ⟨_, ?_, .complete a b hcmd⟩
      dsimp only
      rw [List.cons_append, List.singleton_append, tryProcess_readData h.size_pos]
      rfl

lemma written_of_write (h : flash.Valid) (hwrite : flash.write v = some flash') :
    Written flash v flash' := by
  obtain ⟨_, hsome, hwritten⟩ := exists_write h v
  obtain rfl := Option.some.inj (hsome.symm.trans hwrite)
  exact hwritten

/-- A write keeps the content, and the flash valid. -/
lemma Written.valid (hwritten : Written flash v flash') (h : flash.Valid) :
    flash'.Valid ∧ flash'.size = flash.size ∧ flash'.content = flash.content := by
  cases hwritten with
  | ignored => exact ⟨h, rfl, rfl⟩
  | read =>
    refine ⟨⟨h.size_pos, h.length_content, h.addr_lt, ?_⟩, rfl, rfl⟩
    rintro cmd args heq
    cases heq
    exact ⟨rfl, by decide⟩
  | identity => exact ⟨⟨h.size_pos, h.length_content, nofun, nofun⟩, rfl, rfl⟩
  | argument args _ hlength =>
    refine ⟨⟨h.size_pos, h.length_content, h.addr_lt, ?_⟩, rfl, rfl⟩
    rintro cmd args' heq
    cases heq
    rw [List.length_append, List.length_singleton]
    exact ⟨rfl, by omega⟩
  | complete a b =>
    refine ⟨⟨h.size_pos, h.length_content, ?_, nofun⟩, rfl, rfl⟩
    rintro addr heq
    cases heq
    exact Nat.mod_lt _ h.size_pos

/-- The first byte of a read. -/
lemma Written.cmd_of_command (hwritten : Written flash v flash') (hcmd : flash.cmd = none)
    (hv : v = 0x03) :
    flash'.cmd = some (.readData, []) := by
  cases hwritten with
  | ignored _ htry =>
    rw [hv] at htry
    cases htry
  | read => rfl
  | identity _ _ hid =>
    rw [hv] at hid
    exact absurd hid (by decide)
  | argument args hsome => cases hcmd.symm.trans hsome
  | complete a b hsome => cases hcmd.symm.trans hsome

/-- One of its first arguments. -/
lemma Written.eq_of_argument (hwritten : Written flash v flash') {args : List U8}
    (hcmd : flash.cmd = some (.readData, args)) (hlength : args.length < 2) :
    flash' = { flash with cmd := some (.readData, args ++ [v]) } := by
  cases hwritten with
  | ignored hnone => cases hcmd.symm.trans hnone
  | read hnone => cases hcmd.symm.trans hnone
  | identity _ hnone => cases hcmd.symm.trans hnone
  | argument args' hsome =>
    cases hcmd.symm.trans hsome
    rfl
  | complete a b hsome =>
    cases hcmd.symm.trans hsome
    exact absurd hlength (lt_irrefl 2)

/-- Its last. -/
lemma Written.reply_of_complete (hwritten : Written flash v flash') {a b : U8}
    (hcmd : flash.cmd = some (.readData, [a, b])) :
    flash'.reply = some (.fileContent (address a b v % flash.size)) ∧ flash'.cmd = none := by
  cases hwritten with
  | ignored hnone => cases hcmd.symm.trans hnone
  | read hnone => cases hcmd.symm.trans hnone
  | identity _ hnone => cases hcmd.symm.trans hnone
  | argument args' hsome hlength =>
    cases hcmd.symm.trans hsome
    exact absurd hlength (lt_irrefl 2)
  | complete a b hsome =>
    cases hcmd.symm.trans hsome
    exact ⟨rfl, rfl⟩

/-- A byte that is no command and no argument changes nothing. -/
lemma Written.eq_of_ignored (hwritten : Written flash v flash') (hcmd : flash.cmd = none)
    (htry : Command.tryFrom v = none) : flash' = flash := by
  cases hwritten with
  | ignored => rfl
  | read _ hv =>
    rw [hv] at htry
    cases htry
  | identity _ _ hid => rcases hid with rfl | rfl <;> cases htry
  | argument args hsome => cases hcmd.symm.trans hsome
  | complete a b hsome => cases hcmd.symm.trans hsome

end SpiFlash

/-! ## Runs -/

inductive SpiFlashAction where
  | read
  | write (v : U8)
  deriving DecidableEq, Repr

namespace SpiFlash

def step (flash : SpiFlash) : SpiFlashAction → Option SpiFlash
  | .read => flash.read.map Prod.snd
  | .write v => flash.write v

/-- The bytes that are written. -/
def writesOf (as : List SpiFlashAction) : List U8 :=
  as.filterMap fun a => match a with
    | .read => none
    | .write v => some v

variable {flash flash' : SpiFlash} {a : SpiFlashAction} {as : List SpiFlashAction}

lemma writesOf_snoc_read (as : List SpiFlashAction) : writesOf (as ++ [.read]) = writesOf as := by
  unfold writesOf
  rw [List.filterMap_append]
  exact List.append_nil _

lemma writesOf_snoc_write (as : List SpiFlashAction) (v : U8) :
    writesOf (as ++ [.write v]) = writesOf as ++ [v] := by
  unfold writesOf
  rw [List.filterMap_append]
  rfl

/-- A read moves the reply on. -/
lemma step_read (h : flash.Valid) (hstep : flash.step .read = some flash') :
    flash'.Valid ∧ ∃ reply, flash' = { flash with reply := reply } := by
  obtain ⟨c, reply, hread, hvalid⟩ := read_spec h
  unfold step at hstep
  rw [hread] at hstep
  obtain rfl := Option.some.inj hstep
  exact ⟨hvalid, reply, rfl⟩

/-- **One action** keeps the content, and the flash valid. -/
lemma step_valid (h : flash.Valid) (hstep : flash.step a = some flash') :
    flash'.Valid ∧ flash'.size = flash.size ∧ flash'.content = flash.content := by
  cases a with
  | read =>
    obtain ⟨hvalid, reply, rfl⟩ := step_read h hstep
    exact ⟨hvalid, rfl, rfl⟩
  | write v => exact (written_of_write h hstep).valid h

lemma run_valid (h : flash.Valid) (hrun : Run (stepRel step) flash as flash') :
    flash'.Valid ∧ flash'.size = flash.size ∧ flash'.content = flash.content := by
  refine hrun.invariant_state
    (I := fun s => s.Valid ∧ s.size = flash.size ∧ s.content = flash.content) ⟨h, rfl, rfl⟩ ?_
  rintro s s' a ⟨hvalid, hsize, hcontent⟩ hstep
  obtain ⟨hvalid', hsize', hcontent'⟩ := step_valid hvalid hstep
  exact ⟨hvalid', hsize'.trans hsize, hcontent'.trans hcontent⟩

/-- The bytes of a read and its first arguments are collected, whatever is read meanwhile. -/
lemma cmd_of_collecting (h : flash.Valid) (hcmd : flash.cmd = none)
    (hrun : Run (stepRel step) flash as flash') :
    (writesOf as = [] → flash'.cmd = none) ∧
      ∀ args, args.length < 3 → writesOf as = 0x03 :: args →
        flash'.cmd = some (.readData, args) := by
  have hinvariant : flash'.Valid ∧ (writesOf as = [] → flash'.cmd = none) ∧
      ∀ args, args.length < 3 → writesOf as = 0x03 :: args →
        flash'.cmd = some (.readData, args) := by
    refine hrun.invariant (I := fun as s => s.Valid ∧ (writesOf as = [] → s.cmd = none) ∧
      ∀ args, args.length < 3 → writesOf as = 0x03 :: args → s.cmd = some (.readData, args))
      ⟨h, fun _ => hcmd, fun _ _ hnil => nomatch hnil⟩ ?_
    rintro as s s' a ⟨hvalid, hnone, hsome⟩ hstep
    refine ⟨(step_valid hvalid hstep).1, ?_⟩
    cases a with
    | read =>
      obtain ⟨-, reply, rfl⟩ := step_read hvalid hstep
      rw [writesOf_snoc_read]
      exact ⟨hnone, hsome⟩
    | write v =>
      rw [writesOf_snoc_write]
      refine ⟨fun hnil => absurd hnil
        (List.append_ne_nil_of_right_ne_nil _ (List.cons_ne_nil _ _)), ?_⟩
      intro args hlength hwrites
      have hwritten := written_of_write hvalid hstep
      rcases List.eq_nil_or_concat args with rfl | ⟨init, last, rfl⟩
      · obtain ⟨hbefore, hv⟩ := List.append_inj' (hwrites.trans (List.nil_append _).symm) rfl
        exact hwritten.cmd_of_command (hnone hbefore) (List.singleton_inj.mp hv)
      · rw [List.concat_eq_append] at hwrites hlength ⊢
        rw [← List.cons_append] at hwrites
        obtain ⟨hbefore, hv⟩ := List.append_inj' hwrites rfl
        obtain rfl := List.singleton_inj.mp hv
        rw [List.length_append, List.length_singleton] at hlength
        rw [hwritten.eq_of_argument (hsome init (by omega) hbefore) (by omega)]
  exact hinvariant.2

/-- The reply has streamed `k` bytes from an address on, and no command is being collected. -/
def Streams (addr k : ℕ) (flash : SpiFlash) : Prop :=
  flash.cmd = none ∧ flash.reply = some (.fileContent ((addr + k) % flash.size))

/-- Reads move the reply on, and bytes that are no command leave it alone. -/
lemma streams_of_run {addr : ℕ} (h : flash.Valid) (hstart : flash.Streams addr 0)
    (hrun : Run (stepRel step) flash as flash')
    (hother : ∀ v ∈ writesOf as, Command.tryFrom v = none) :
    flash'.Streams addr (as.count .read) := by
  have hinvariant : flash'.Valid ∧
      ((∀ v ∈ writesOf as, Command.tryFrom v = none) → flash'.Streams addr (as.count .read)) := by
    refine hrun.invariant (I := fun as s => s.Valid ∧
      ((∀ v ∈ writesOf as, Command.tryFrom v = none) → s.Streams addr (as.count .read))) ⟨h,
        fun _ => hstart⟩ ?_
    rintro as s s' a ⟨hvalid, hstreams⟩ hstep
    refine ⟨(step_valid hvalid hstep).1, fun hother => ?_⟩
    cases a with
    | read =>
      rw [writesOf_snoc_read] at hother
      obtain ⟨hcmd, hreply⟩ := hstreams hother
      obtain ⟨c, -, hread⟩ := read_fileContent hvalid hreply
      have hnext : s.read.map Prod.snd = some s' := hstep
      rw [hread] at hnext
      obtain rfl := Option.some.inj hnext
      refine ⟨hcmd, ?_⟩
      dsimp only
      rw [List.count_append, List.count_singleton_self, Nat.mod_add_mod, Nat.add_assoc]
    | write v =>
      rw [writesOf_snoc_write] at hother
      have hstreams := hstreams fun w hw => hother w (List.mem_append_left _ hw)
      have hv := hother v (List.mem_append_right _ (List.mem_singleton.mpr rfl))
      obtain rfl := (written_of_write hvalid hstep).eq_of_ignored hstreams.1 hv
      have hcount : (as ++ [SpiFlashAction.write v]).count .read = as.count .read := by
        rw [List.count_append]
        rfl
      rwa [hcount]
  exact hinvariant.2 hother

lemma address_eq (a b c : U8) : address a b c = a.toNat * 65536 + b.toNat * 256 + c.toNat := by
  have hshift : ∀ {x : ℕ} {y : U8}, x <<< 8 ||| y.toNat = x * 256 + y.toNat := by
    intro x y
    rw [← Nat.shiftLeft_add_eq_or_of_lt y.isLt, Nat.shiftLeft_eq]
  unfold address fromLeBytes
  rw [BitVec.toNat_append, BitVec.toNat_append, BitVec.toNat_append, hshift, hshift, hshift]
  have hzero : (0 : U8).toNat = 0 := rfl
  omega

/-- **The read command.**  In every state that a flash reaches which is not empty, no access fails,
the address of the reply is inside of the content, at most two arguments wait for the last, and a
byte that starts no command and is no last argument disturbs no reply.  After the command and its
three arguments, with any reads in between, the `k`-th read gives the byte `k` after the address,
around the end of the content. -/
theorem read_command (jedecId : U32) (size : ℕ) (file : List U8) (hsize : 0 < size)
    {before : List SpiFlashAction} {flash : SpiFlash}
    (hreach : Run (stepRel step) (new jedecId size file) before flash) :
    (∀ a, (flash.step a).isSome = true) ∧
    (∀ addr, flash.reply = some (.fileContent addr) → addr < flash.content.length) ∧
    (∀ cmd args, flash.cmd = some (cmd, args) → args.length < 3) ∧
    (∀ v flash', flash.write v = some flash' →
      (flash.cmd = none → Command.tryFrom v = none → flash' = flash) ∧
      (∀ cmd args, flash.cmd = some (cmd, args) → args.length < 2 → flash'.reply = flash.reply)) ∧
    ∀ (a b c : U8) (collect stream : List SpiFlashAction) (flash₁ flash₂ flash₃ : SpiFlash),
      flash.cmd = none →
      writesOf collect = [0x03, a, b] → Run (stepRel step) flash collect flash₁ →
      flash₁.write c = some flash₂ →
      (∀ v ∈ writesOf stream, Command.tryFrom v = none) → Run (stepRel step) flash₂ stream flash₃ →
      ∃ byte next, flash₃.read = some (byte, next) ∧ (resize file size)[
        (a.toNat * 65536 + b.toNat * 256 + c.toNat + stream.count .read) % size]? = some byte := by
  obtain ⟨hvalid, hsame, hcontent⟩ := run_valid (valid_new jedecId hsize file) hreach
  refine ⟨fun a => ?_, fun addr hreply => ?_, fun cmd args hcmd =>
    (hvalid.collecting cmd args hcmd).2, fun v flash' hwrite =>
      ⟨(written_of_write hvalid hwrite).eq_of_ignored, fun cmd args hcmd hlength => ?_⟩, ?_⟩
  · cases a with
    | read =>
      obtain ⟨c, reply, hread, -⟩ := read_spec hvalid
      unfold step
      rw [hread]
      rfl
    | write v =>
      obtain ⟨flash', hwrite, -⟩ := exists_write hvalid v
      exact Option.isSome_of_eq_some hwrite
  · rw [hvalid.length_content]
    exact hvalid.addr_lt addr hreply
  · obtain ⟨rfl, -⟩ := hvalid.collecting cmd args hcmd
    rw [(written_of_write hvalid hwrite).eq_of_argument hcmd hlength]
  · intro a b c collect stream flash₁ flash₂ flash₃ hcmd hwrites hcollect hlast hother hstream
    obtain ⟨hvalid₁, hsame₁, hcontent₁⟩ := run_valid hvalid hcollect
    have hcmd₁ := (cmd_of_collecting hvalid hcmd hcollect).2 [a, b] (Nat.lt_succ_self 2) hwrites
    have hwritten := written_of_write hvalid₁ hlast
    obtain ⟨hvalid₂, hsame₂, hcontent₂⟩ := hwritten.valid hvalid₁
    obtain ⟨hreply₂, hcmd₂⟩ := hwritten.reply_of_complete hcmd₁
    have hstart : flash₂.Streams (address a b c) 0 := ⟨hcmd₂, by rw [hreply₂, hsame₂]; rfl⟩
    obtain ⟨hvalid₃, hsame₃, hcontent₃⟩ := run_valid hvalid₂ hstream
    obtain ⟨byte, hbyte, hread⟩ :=
      read_fileContent hvalid₃ (streams_of_run hvalid₂ hstart hstream hother).2
    refine ⟨byte, _, hread, ?_⟩
    have hsize₃ : flash₃.size = size := by
      rw [hsame₃, hsame₂, hsame₁, hsame]
      rfl
    rw [hcontent₃, hcontent₂, hcontent₁, hcontent, hsize₃, address_eq] at hbyte
    exact hbyte

/-- A flash of four bytes. -/
def sampleSpiFlash : SpiFlash := new 0x00ef4014 4 [0x0a, 0x14, 0x1e, 0x28]

/-- A read from the last byte on goes around the end, past a byte that is no command. -/
theorem read_command_sample : ∃ flash₁ flash₂ flash₃ byte next,
    Run (stepRel step) sampleSpiFlash [.write 0x03, .read, .write 0, .write 0] flash₁ ∧
      flash₁.write 3 = some flash₂ ∧ Run (stepRel step) flash₂ [.read, .write 0xff] flash₃ ∧
      flash₃.read = some (byte, next) ∧ byte = 0x0a := by
  have hcollect : execGuarded (fun _ _ => True) step sampleSpiFlash
      [.write 0x03, .read, .write 0, .write 0] =
      some { sampleSpiFlash with cmd := some (.readData, [0, 0]) } := by decide
  have hstream : execGuarded (fun _ _ => True) step
      { sampleSpiFlash with reply := some (.fileContent 3) }
      [.read, .write 0xff] = some { sampleSpiFlash with reply := some (.fileContent 0) } := by
        decide
  have hrun₁ := (Run.of_execGuarded hcollect).mono fun _ _ _ h => h.2
  have hrun₂ := (Run.of_execGuarded hstream).mono fun _ _ _ h => h.2
  obtain ⟨byte, next, hread, hbyte⟩ :=
    (read_command 0x00ef4014 4 [0x0a, 0x14, 0x1e, 0x28] (by decide) Run.nil).2.2.2.2 0 0 3 _ _ _ _ _
      rfl rfl hrun₁ rfl (by decide) hrun₂
  exact ⟨_, _, _, byte, next, hrun₁, rfl, hrun₂, hread, (Option.some.inj hbyte).symm⟩

end SpiFlash

end Stm32Emulator
