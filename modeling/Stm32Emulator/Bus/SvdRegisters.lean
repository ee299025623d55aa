import Mathlib.Data.List.AList
import Stm32Emulator.Bus.Registration
import Stm32Emulator.Foundation.CheckedCollect

/-!
# The registers of a device description

A peripheral declares registers and clusters of registers, and each of these may be an array.
`extractSvdRegisters` writes them out one by one.  The registers of an array of clusters are moved
by the offset of their cluster, but those of a single cluster are not: they are extracted as if
their cluster were at the base of the peripheral.  What a description declares
(`PeripheralInfo.declared`) is extracted if and only if no single cluster is anywhere else.
-/

namespace Stm32Emulator

variable {α : Type}

/-! ## What is declared -/

/-- How the elements of an array follow each other. -/
structure DimElement where
  dim : U32
  dimIncrement : U32
  dimIndex : Option (List String)
  deriving DecidableEq, Repr

inductive MaybeArray (ι : Type) where
  | single (info : ι)
  | array (info : ι) (dim : DimElement)
  deriving DecidableEq, Repr

/-- A register, with the fields that extraction copies as they are. -/
structure RegisterInfo (α : Type) where
  name : String
  addressOffset : U32
  rest : α
  deriving DecidableEq, Repr

structure ClusterInfo (α : Type) where
  addressOffset : U32
  allRegisters : List (MaybeArray (RegisterInfo α))
  deriving DecidableEq, Repr

structure PeripheralInfo (α : Type) where
  registers : List (MaybeArray (RegisterInfo α))
  clusters : List (MaybeArray (ClusterInfo α))
  deriving DecidableEq, Repr

/-- What is used of the library of the parser. -/
structure SvdArrays (α : Type) where
  registerAddressOffsets : RegisterInfo α → DimElement → Option (List U32)
  names : RegisterInfo α → DimElement → List String
  clusterAddressOffsets : ClusterInfo α → DimElement → Option (List U32)
  indexes : DimElement → List String

/-! ## Extraction -/

/-- A register in its place in an array. -/
def RegisterInfo.inArray (reg : RegisterInfo α) : Option (U32 × String) → RegisterInfo α
  | some (arrayAddress, name) => { reg with addressOffset := arrayAddress, name := name }
  | none => reg

/-- A register moved with its cluster.  An offset that is not a word is a panic. -/
def RegisterInfo.inCluster (reg : RegisterInfo α) : Option (U32 × String) → Option (RegisterInfo α)
  | some (clusterOffset, clusterSuffix) =>
    (checkedAdd reg.addressOffset clusterOffset).map fun offset =>
      { reg with addressOffset := offset, name := reg.name ++ clusterSuffix }
  | none => some reg

def collectRegister (reg : RegisterInfo α) (inArray cluster : Option (U32 × String)) :
    Option (RegisterInfo α) :=
  (reg.inArray inArray).inCluster cluster

/-- The registers of one declaration. -/
def collectDeclaration (svd : SvdArrays α) (cluster : Option (U32 × String)) :
    MaybeArray (RegisterInfo α) → Option (List (RegisterInfo α))
  | .single r => (collectRegister r none cluster).map fun r => [r]
  | .array r dim => (svd.registerAddressOffsets r dim).bind fun offsets =>
      collectAll (fun inArray => (collectRegister r (some inArray) cluster).map fun r => [r])
        (offsets.zip (svd.names r dim))

def collectRegisters (svd : SvdArrays α) (regs : List (MaybeArray (RegisterInfo α)))
    (cluster : Option (U32 × String)) : Option (List (RegisterInfo α)) :=
  collectAll (collectDeclaration svd cluster) regs

/-- The registers of one round of the loop over clusters.  The offset of a single cluster is not
used. -/
def collectCluster (svd : SvdArrays α) : MaybeArray (ClusterInfo α) → Option (List (RegisterInfo α))
  | .single c => collectRegisters svd c.allRegisters none
  | .array c dim => (svd.clusterAddressOffsets c dim).bind fun offsets =>
      collectAll (fun cluster => collectRegisters svd c.allRegisters (some cluster))
        (offsets.zip (svd.indexes dim))

/-- All registers of a peripheral, one by one. -/
def extractSvdRegisters (svd : SvdArrays α) (p : PeripheralInfo α) :
    Option (List (RegisterInfo α)) :=
  (collectRegisters svd p.registers none).bind fun allRegs =>
    (collectAll (collectCluster svd) p.clusters).map fun clusterRegs => allRegs ++ clusterRegs

/-- The registers of a block by their offsets.  Of several with one offset the last one is kept. -/
structure GenericPeripheral (α : Type) where
  name : String
  registers : AList fun _ : U32 => RegisterInfo α

namespace GenericPeripheral

def new (name : String) (registers : List (RegisterInfo α)) : GenericPeripheral α :=
  ⟨name, registers.foldl (fun entries r => entries.insert r.addressOffset r) ∅⟩

def size (p : GenericPeripheral α) : Option U32 := checkedAdd (lastOffset p.registers.keys) 4

end GenericPeripheral

/-! ## What extraction is for -/

/-- The offsets of the elements of an array. -/
def DimElement.offsets (dim : DimElement) (offset : U32) : List ℕ :=
  (List.range dim.dim.toNat).map fun i => offset.toNat + i * dim.dimIncrement.toNat

namespace MaybeArray

variable {ι : Type}

def info : MaybeArray ι → ι
  | single info => info
  | array info _ => info

/-- The offsets of what is declared, one for each element of an array. -/
def offsets (addressOffset : ι → U32) : MaybeArray ι → List ℕ
  | single info => [(addressOffset info).toNat]
  | array info dim => dim.offsets (addressOffset info)

end MaybeArray

/-- An instance of a register, further on by the offset of its cluster. -/
def moved (offset : ℕ) (r : α × ℕ) : α × ℕ := (r.1, r.2 + offset)

/-- The instances of registers, with their offsets. -/
def instances (regs : List (MaybeArray (RegisterInfo α))) : List (α × ℕ) :=
  regs.flatMap fun r => (r.offsets RegisterInfo.addressOffset).map fun offset =>
    (r.info.rest, offset)

/-- The instances of registers in each of several clusters. -/
def copies (offsets : List ℕ) (rs : List (α × ℕ)) : List (α × ℕ) :=
  offsets.flatMap fun offset => rs.map (moved offset)

namespace PeripheralInfo

/-- The instances of registers that a description declares, with their true offsets. -/
def declared (p : PeripheralInfo α) : List (α × ℕ) :=
  instances p.registers ++ p.clusters.flatMap fun c =>
    copies (c.offsets ClusterInfo.addressOffset) (instances c.info.allRegisters)

/-- No cluster of an array and no end of a register is past 32 bits. -/
def Fits (p : PeripheralInfo α) : Prop :=
  (∀ c ∈ p.clusters, ∀ offset ∈ c.offsets ClusterInfo.addressOffset, offset < 2 ^ 32) ∧
    ∀ r ∈ p.declared, r.2 + 4 < 2 ^ 32

end PeripheralInfo

/-- What a register is an instance of, and where it is. -/
def RegisterInfo.entry (r : RegisterInfo α) : α × ℕ := (r.rest, r.addressOffset.toNat)

/-- The size of a block with these registers reaches the end of all instances, and so does the slot
of a modelled peripheral, unless its name gives it a range of its own. -/
def Reaches (registers : List (RegisterInfo α)) (declared : List (α × ℕ)) : Prop :=
  (∀ name, ∃ size, (GenericPeripheral.new name registers).size = some size ∧
    ∀ r ∈ declared, r.2 + 4 ≤ size.toNat) ∧
  ∀ (D : Type) (extDevices : ExtDevices D)
    (internalFlash : Option (InternalFlashConfig D)) (name : String) (base : U32)
    (block : DebugSlot) (slot : PeripheralSlot D),
    name ∉ ["FSMC", "OTG_FS_GLOBAL", "SCB"] →
    Peripherals.registerPeripheral extDevices internalFlash name base
      (registers.map RegisterInfo.addressOffset) = some (block, some slot) →
    slot.start = base ∧ ∀ r ∈ declared, base.toNat + r.2 + 4 ≤ slot.end_.toNat

/-- Extraction yields each declared instance once and at its true offset, and the block that is made
of them reaches all of them. -/
def ExtractsTrueOffsets (svd : SvdArrays α) (p : PeripheralInfo α) : Prop :=
  ∃ registers, extractSvdRegisters svd p = some registers ∧
    (registers.map RegisterInfo.entry).Perm p.declared ∧ Reaches registers p.declared

/-- The library gives each element of an array its offset, which is a panic if it is not a word, and
one name or index. -/
structure SvdArrays.Correct (svd : SvdArrays α) : Prop where
  registerAddressOffsets : ∀ r dim, Yields BitVec.toNat (svd.registerAddressOffsets r dim)
    (dim.offsets r.addressOffset) (∀ offset ∈ dim.offsets r.addressOffset, offset < 2 ^ 32)
  length_names : ∀ r dim, (svd.names r dim).length = dim.dim.toNat
  clusterAddressOffsets : ∀ c dim, Yields BitVec.toNat (svd.clusterAddressOffsets c dim)
    (dim.offsets c.addressOffset) (∀ offset ∈ dim.offsets c.addressOffset, offset < 2 ^ 32)
  length_indexes : ∀ dim, (svd.indexes dim).length = dim.dim.toNat

/-! ## What is extracted -/

/-- The offset of a cluster, as far as a register is told. -/
def clusterOffset (cluster : Option (U32 × String)) : ℕ := cluster.elim 0 fun c => c.1.toNat

/-- The offsets that the registers of a cluster are moved by. -/
def MaybeArray.usedOffsets : MaybeArray (ClusterInfo α) → List ℕ
  | single _ => [0]
  | array c dim => dim.offsets c.addressOffset

/-- The instances as they are extracted. -/
def PeripheralInfo.extracted (p : PeripheralInfo α) : List (α × ℕ) :=
  instances p.registers ++ p.clusters.flatMap fun c =>
    copies c.usedOffsets (instances c.info.allRegisters)

/-- A register that is moved with its cluster. -/
lemma yields_inCluster (r : RegisterInfo α) (cluster : Option (U32 × String)) :
    Yields RegisterInfo.entry ((r.inCluster cluster).map fun r => [r])
    [moved (clusterOffset cluster) r.entry] (r.entry.2 + clusterOffset cluster < 2 ^ 32) := by
  rcases cluster with _ | ⟨offset, suffix⟩
  · exact (Yields.of_some [r]).congr rfl ⟨fun _ => r.addressOffset.isLt, fun _ => trivial⟩
  · have hsum : ∀ {rs}, ((r.inCluster (some (offset, suffix))).map fun r => [r]) = some rs →
        ∃ sum : U32, sum.toNat = r.addressOffset.toNat + offset.toNat ∧
          rs = [{ r with addressOffset := sum, name := r.name ++ suffix }] := by
      intro rs hrs
      obtain ⟨r', hr', rfl⟩ := Option.map_eq_some_iff.mp hrs
      obtain ⟨sum, hsum, rfl⟩ := Option.map_eq_some_iff.mp hr'
      exact ⟨sum, Peripherals.checkedAdd_eq_some_iff.mp hsum, rfl⟩
    constructor
    · intro hfits
      have hadd : checkedAdd r.addressOffset offset = some (r.addressOffset + offset) :=
        if_pos hfits
      refine ⟨[{ r with addressOffset := r.addressOffset + offset, name := r.name ++ suffix }], ?_⟩
      rw [RegisterInfo.inCluster, hadd, Option.map_some, Option.map_some]
    · intro rs hrs
      obtain ⟨sum, hsum, -⟩ := hsum hrs
      exact hsum ▸ sum.isLt
    · intro rs hrs
      obtain ⟨sum, hsum, rfl⟩ := hsum hrs
      exact congrArg (fun offset => [(r.rest, offset)]) hsum

lemma length_offsets (dim : DimElement) (offset : U32) :
    (dim.offsets offset).length = dim.dim.toNat := by
  rw [DimElement.offsets, List.length_map, List.length_range]

section Correct

variable {svd : SvdArrays α} (hsvd : svd.Correct)

include hsvd

/-- All instances of a declared register are moved with their cluster. -/
lemma yields_collectDeclaration (r : MaybeArray (RegisterInfo α))
    (cluster : Option (U32 × String)) :
    Yields RegisterInfo.entry (collectDeclaration svd cluster r)
      ((r.offsets RegisterInfo.addressOffset).map fun offset =>
        moved (clusterOffset cluster) (r.info.rest, offset))
      (∀ offset ∈ r.offsets RegisterInfo.addressOffset,
        offset + clusterOffset cluster < 2 ^ 32) := by
  rcases r with r | ⟨r, dim⟩
  · refine (yields_inCluster r cluster).congr rfl ?_
    simp only [MaybeArray.offsets, List.forall_mem_singleton]
    exact Iff.rfl
  · have hlength := (hsvd.length_names r dim).trans (length_offsets dim r.addressOffset).symm
    refine ((hsvd.registerAddressOffsets r dim).collectAll_zip hlength
      (fun offset => [moved (clusterOffset cluster) (r.rest, offset)])
      (fun offset => offset + clusterOffset cluster < 2 ^ 32)
      fun offset name => yields_inCluster (r.inArray (some (offset, name))) cluster).congr ?_ ?_
    · exact List.flatMap_pure_eq_map _ _
    · exact ⟨fun h => h.2, fun h =>
        ⟨fun offset ho => (Nat.le_add_right _ _).trans_lt (h offset ho), h⟩⟩

lemma yields_collectRegisters (regs : List (MaybeArray (RegisterInfo α)))
    (cluster : Option (U32 × String)) :
    Yields RegisterInfo.entry (collectRegisters svd regs cluster)
      ((instances regs).map (moved (clusterOffset cluster)))
      (∀ r ∈ instances regs, r.2 + clusterOffset cluster < 2 ^ 32) := by
  refine (Yields.collectAll fun r _ => yields_collectDeclaration hsvd r cluster).congr ?_ ?_
  · unfold instances
    simp only [List.map_flatMap, List.map_map, Function.comp_def]
  · unfold instances
    simp only [List.forall_mem_flatMap, List.forall_mem_map]

/-- All instances in a cluster are moved by what is used of its offsets. -/
lemma yields_collectCluster (c : MaybeArray (ClusterInfo α)) :
    Yields RegisterInfo.entry (collectCluster svd c)
    (copies c.usedOffsets (instances c.info.allRegisters))
      ((∀ offset ∈ c.offsets ClusterInfo.addressOffset, offset < 2 ^ 32) ∧
        ∀ offset ∈ c.usedOffsets, ∀ r ∈ instances c.info.allRegisters, r.2 + offset < 2 ^ 32) := by
  rcases c with c | ⟨c, dim⟩
  · refine (yields_collectRegisters hsvd c.allRegisters none).congr (List.append_nil _).symm ?_
    have hbase : ∀ offset ∈ (MaybeArray.single c).offsets ClusterInfo.addressOffset,
        offset < 2 ^ 32 :=
      List.forall_mem_singleton.mpr c.addressOffset.isLt
    exact ⟨fun h => ⟨hbase, List.forall_mem_singleton.mpr h⟩, fun h =>
      List.forall_mem_singleton.mp h.2⟩
  · have hlength := (hsvd.length_indexes dim).trans (length_offsets dim c.addressOffset).symm
    exact (hsvd.clusterAddressOffsets c dim).collectAll_zip hlength
      (fun offset => (instances c.allRegisters).map (moved offset))
      (fun offset => ∀ r ∈ instances c.allRegisters, r.2 + offset < 2 ^ 32)
      fun offset index => yields_collectRegisters hsvd c.allRegisters (some (offset, index))

/-- **What is extracted**, and when there is a result. -/
lemma yields_extractSvdRegisters (p : PeripheralInfo α) :
    Yields RegisterInfo.entry (extractSvdRegisters svd p) p.extracted
      ((∀ c ∈ p.clusters, ∀ offset ∈ c.offsets ClusterInfo.addressOffset, offset < 2 ^ 32) ∧
        ∀ r ∈ p.extracted, r.2 < 2 ^ 32) := by
  have hmoved : ∀ regs : List (MaybeArray (RegisterInfo α)), (instances regs).map (moved 0) =
      instances regs :=
    fun regs => List.map_id _
  refine ((yields_collectRegisters hsvd p.registers none).append
    (Yields.collectAll fun c _ => yields_collectCluster hsvd c)).congr ?_ ?_
  · exact congrArg (· ++ _) (hmoved p.registers)
  · unfold PeripheralInfo.extracted copies
    simp only [List.forall_mem_append, List.forall_mem_flatMap, List.forall_mem_map]
    exact ⟨fun h => ⟨fun c hc => (h.2 c hc).1, h.1, fun c hc => (h.2 c hc).2⟩,
      fun h => ⟨h.2.1, fun c hc => ⟨h.1 c hc, h.2.2 c hc⟩⟩⟩

end Correct

/-! ## Which descriptions are extracted as they are declared -/

lemma sum_moved (rs : List (α × ℕ)) (offset : ℕ) :
    ((rs.map (moved offset)).map Prod.snd).sum = (rs.map Prod.snd).sum + rs.length * offset := by
  induction rs with
  | nil => simp
  | cons r rs ih =>
    rw [List.map_cons, List.map_cons, List.map_cons, List.sum_cons, List.sum_cons, ih,
      List.length_cons, Nat.succ_mul, moved]
    omega

lemma copies_single (offset : ℕ) (rs : List (α × ℕ)) : copies [offset] rs = rs.map (moved offset) :=
  List.append_nil _

lemma sum_copies_usedOffsets_le (c : MaybeArray (ClusterInfo α)) (rs : List (α × ℕ)) :
    ((copies c.usedOffsets rs).map Prod.snd).sum ≤
      ((copies (c.offsets ClusterInfo.addressOffset) rs).map Prod.snd).sum := by
  rcases c with c | ⟨c, dim⟩
  · rw [MaybeArray.usedOffsets, MaybeArray.offsets, copies_single, copies_single,
      sum_moved, sum_moved]
    omega
  · exact le_rfl

/-- The sum of all offsets tells a single cluster that is not at the base, unless it has no
registers. -/
lemma sum_copies_usedOffsets_eq_iff {c : MaybeArray (ClusterInfo α)} {rs : List (α × ℕ)} :
    ((copies c.usedOffsets rs).map Prod.snd).sum =
        ((copies (c.offsets ClusterInfo.addressOffset) rs).map Prod.snd).sum ↔
      ∀ info, c = .single info → rs ≠ [] → info.addressOffset = 0 := by
  rcases c with c | ⟨c, dim⟩
  · rw [MaybeArray.usedOffsets, MaybeArray.offsets, copies_single, copies_single,
      sum_moved, sum_moved, Nat.mul_zero, Nat.add_left_cancel_iff, eq_comm, Nat.mul_eq_zero,
      List.length_eq_zero_iff]
    constructor
    · intro h info hinfo hrs
      obtain rfl := MaybeArray.single.inj hinfo
      exact BitVec.eq_of_toNat_eq (h.resolve_left hrs)
    · intro h
      rcases eq_or_ne rs [] with hnone | hrs
      · exact Or.inl hnone
      · exact Or.inr (congrArg BitVec.toNat (h c rfl hrs))
  · exact ⟨fun _ _ hinfo => (nomatch hinfo), fun _ => rfl⟩

lemma copies_usedOffsets_eq {c : MaybeArray (ClusterInfo α)} {rs : List (α × ℕ)}
    (h : ∀ info, c = .single info → rs ≠ [] → info.addressOffset = 0) :
    copies c.usedOffsets rs = copies (c.offsets ClusterInfo.addressOffset) rs := by
  rcases c with c | ⟨c, dim⟩
  · rcases eq_or_ne rs [] with rfl | hrs
    · rfl
    · rw [MaybeArray.usedOffsets, MaybeArray.offsets, h c rfl hrs]
      rfl
  · rfl

/-- **The declared instances are extracted** if all single clusters with registers are at the
base. -/
lemma extracted_perm_declared_iff (p : PeripheralInfo α) :
    p.extracted.Perm p.declared ↔
      ∀ c, MaybeArray.single c ∈ p.clusters → instances c.allRegisters ≠ [] →
        c.addressOffset = 0 := by
  unfold PeripheralInfo.extracted PeripheralInfo.declared
  rw [List.perm_append_left_iff,
    perm_flatMap_iff Prod.snd (fun c _ => sum_copies_usedOffsets_le c _)
    fun c _ hsum => copies_usedOffsets_eq (sum_copies_usedOffsets_eq_iff.mp hsum)]
  constructor
  · intro h c hc
    exact sum_copies_usedOffsets_eq_iff.mp (congrArg (fun l => (l.map Prod.snd).sum) (h _ hc)) c rfl
  · intro h c hc
    refine copies_usedOffsets_eq ?_
    rintro info rfl
    exact h info hc

/-! ## How far a block reaches -/

lemma mem_keys_new (name : String) (registers : List (RegisterInfo α)) (offset : U32) :
    offset ∈ (GenericPeripheral.new name registers).registers.keys ↔
      offset ∈ registers.map RegisterInfo.addressOffset := by
  have hinsert : ∀ entries : AList fun _ : U32 => RegisterInfo α,
      offset ∈ registers.foldl (fun entries r => entries.insert r.addressOffset r) entries ↔
        offset ∈ registers.map RegisterInfo.addressOffset ∨ offset ∈ entries := by
    induction registers with
    | nil => exact fun entries => (or_iff_right List.not_mem_nil).symm
    | cons r registers ih =>
      intro entries
      rw [List.foldl_cons, ih, AList.mem_insert, List.map_cons, List.mem_cons]
      tauto
  exact (hinsert ∅).trans (or_iff_left (AList.notMem_empty offset))

lemma size_new (name : String) (registers : List (RegisterInfo α)) :
    (GenericPeripheral.new name registers).size =
      genericSize (registers.map RegisterInfo.addressOffset) := by
  unfold GenericPeripheral.size genericSize
  rw [lastOffset_congr (mem_keys_new name registers)]

section Reaches

variable {registers : List (RegisterInfo α)} {declared : List (α × ℕ)}
  (hperm : (registers.map RegisterInfo.entry).Perm declared)

include hperm

/-- The size of a block whose registers are the declared ones. -/
lemma exists_genericSize (hfits : ∀ r ∈ declared, r.2 + 4 < 2 ^ 32) :
    ∃ size, genericSize (registers.map RegisterInfo.addressOffset) = some size ∧
      ∀ r ∈ declared, r.2 + 4 ≤ size.toNat := by
  obtain ⟨hall, hlast⟩ := lastOffset_spec (registers.map RegisterInfo.addressOffset)
  have hlt : (lastOffset (registers.map RegisterInfo.addressOffset)).toNat + 4 < 2 ^ 32 := by
    rcases hlast with hmem | hzero
    · obtain ⟨r, hr, heq⟩ := List.mem_map.mp hmem
      have hdeclared := hfits r.entry (hperm.mem_iff.mp (List.mem_map_of_mem hr))
      rwa [← heq]
    · rw [hzero]
      decide
  have hadd : checkedAdd (lastOffset (registers.map RegisterInfo.addressOffset)) 4 = some _ :=
    if_pos hlt
  refine ⟨_, hadd, ?_⟩
  intro r hr
  obtain ⟨reg, hreg, rfl⟩ := List.mem_map.mp (hperm.mem_iff.mpr hr)
  have hle := BitVec.le_def.mp (hall reg.addressOffset (List.mem_map_of_mem hreg))
  rw [Peripherals.checkedAdd_eq_some_iff.mp hadd]
  exact Nat.add_le_add_right hle 4

/-- The slot reaches as far as the block. -/
lemma slot_reaches {D : Type} {extDevices : ExtDevices D}
    {internalFlash : Option (InternalFlashConfig D)} {name : String} {base : U32}
    {block : DebugSlot} {slot : PeripheralSlot D} (hname : name ∉ ["FSMC", "OTG_FS_GLOBAL", "SCB"])
    (hslot : Peripherals.registerPeripheral extDevices internalFlash name base
      (registers.map RegisterInfo.addressOffset) = some (block, some slot)) :
    slot.start = base ∧ ∀ r ∈ declared, base.toNat + r.2 + 4 ≤ slot.end_.toNat := by
  -- a description of this peripheral only
  have hbase : (base.setWidth 64).setWidth 32 = base := by simp
  have hregistered : Peripherals.registerDeclared extDevices internalFlash []
      ⟨name, base.setWidth 64, none, registers.map RegisterInfo.addressOffset⟩ =
        some (block, some slot) := by
    unfold Peripherals.registerDeclared
    rw [hbase]
    exact hslot
  obtain ⟨-, -, -, -, -, -, -, hrange⟩ := Peripherals.registerDeclared_spec hregistered
  have hrange := hrange slot rfl
  simp only [List.mem_cons, List.not_mem_nil, or_false, not_or] at hname
  unfold Peripherals.declaredRange at hrange
  rw [if_neg hname.1, if_neg hname.2.1, if_neg hname.2.2, Prod.mk.injEq, hbase] at hrange
  refine ⟨BitVec.eq_of_toNat_eq hrange.1, ?_⟩
  intro r hr
  obtain ⟨reg, hreg, rfl⟩ := List.mem_map.mp (hperm.mem_iff.mpr hr)
  have hle := BitVec.le_def.mp
    ((lastOffset_spec (registers.map RegisterInfo.addressOffset)).1 reg.addressOffset
      (List.mem_map_of_mem hreg))
  rw [hrange.2]
  exact Nat.add_le_add_right (Nat.add_le_add_left hle base.toNat) 4

lemma reaches_declared (hfits : ∀ r ∈ declared, r.2 + 4 < 2 ^ 32) : Reaches registers declared := by
  refine ⟨fun name => ?_, fun D extDevices internalFlash name base block slot hname hslot =>
    slot_reaches hperm hname hslot⟩
  rw [size_new]
  exact exists_genericSize hperm hfits

end Reaches

/-- **Extraction is right exactly for the descriptions whose single clusters are at the base**,
those without registers apart, as long as the offsets are words. -/
theorem extractsTrueOffsets_iff {svd : SvdArrays α} (hsvd : svd.Correct) (p : PeripheralInfo α) :
    ExtractsTrueOffsets svd p ↔
      (∀ c, MaybeArray.single c ∈ p.clusters → instances c.allRegisters ≠ [] →
        c.addressOffset = 0) ∧
        p.Fits := by
  have hyields := yields_extractSvdRegisters hsvd p
  rw [← extracted_perm_declared_iff]
  constructor
  · rintro ⟨registers, hregisters, hperm, hsize, -⟩
    rw [hyields.map_key hregisters] at hperm
    obtain ⟨size, -, hall⟩ := hsize ""
    refine ⟨hperm, (hyields.fits_of_eq_some hregisters).1, fun r hr => ?_⟩
    exact (hall r hr).trans_lt size.isLt
  · rintro ⟨hperm, hclusters, hends⟩
    obtain ⟨registers, hregisters⟩ := hyields.exists_of_fits ⟨hclusters, fun r hr => by
      have hend := hends r (hperm.mem_iff.mp hr)
      omega⟩
    rw [← hyields.map_key hregisters] at hperm
    exact ⟨registers, hregisters, hperm, reaches_declared hperm hends⟩

/-! ## A device -/

namespace SvdArrays

def addressOffsets (offset : U32) (dim : DimElement) : Option (List U32) :=
  collectAll (fun element => if element < 2 ^ 32 then some [BitVec.ofNat 32 element] else none)
    (dim.offsets offset)

/-- The number of an element unless the description gives it an index. -/
def dimIndexes (dim : DimElement) : List String :=
  (List.range dim.dim.toNat).map fun i =>
    (dim.dimIndex.bind fun indexes => indexes[i]?).getD (toString i)

/-- The library for a device as it is delivered. -/
def standard : SvdArrays α where
  registerAddressOffsets r dim := addressOffsets r.addressOffset dim
  names r dim := (dimIndexes dim).map fun index => (r.name.replace "[%s]" index).replace "%s" index
  clusterAddressOffsets c dim := addressOffsets c.addressOffset dim
  indexes := dimIndexes

lemma yields_addressOffsets (offset : U32) (dim : DimElement) :
    Yields BitVec.toNat (addressOffsets offset dim) (dim.offsets offset)
      (∀ element ∈ dim.offsets offset, element < 2 ^ 32) := by
  have helement : ∀ element : ℕ,
      Yields BitVec.toNat (if element < 2 ^ 32 then some [BitVec.ofNat 32 element]
        else none) [element] (element < 2 ^ 32) := by
    intro element
    split_ifs with hlt
    · refine (Yields.of_some [BitVec.ofNat 32 element]).congr ?_ ⟨fun _ => hlt, fun _ => trivial⟩
      rw [List.map_singleton, BitVec.toNat_ofNat, Nat.mod_eq_of_lt hlt]
    · exact ⟨fun h => absurd h hlt, fun h => (nomatch h), fun h => (nomatch h)⟩
  refine (Yields.collectAll fun element _ => helement element).congr ?_ Iff.rfl
  exact (List.flatMap_pure_eq_map _ _).trans (List.map_id _)

lemma correct_standard : (standard : SvdArrays α).Correct := by
  have hindexes : ∀ dim, (dimIndexes dim).length = dim.dim.toNat := by
    intro dim
    rw [dimIndexes, List.length_map, List.length_range]
  exact ⟨fun r dim => yields_addressOffsets r.addressOffset dim,
    fun r dim => (List.length_map _).trans (hindexes dim),
    fun c dim => yields_addressOffsets c.addressOffset dim, hindexes⟩

end SvdArrays

/-- A CAN controller with its mailboxes and filter banks, some of the registers of each. -/
def canInfo : PeripheralInfo String where
  registers := [.single ⟨"MCR", 0x00, "master control register"⟩,
    .array ⟨"RF%sR", 0x0c, "receive FIFO register"⟩ ⟨2, 0x4, some ["0", "1"]⟩]
  clusters := [.array ⟨0x180, [.single ⟨"TIR", 0x0, "mailbox identifier register"⟩,
      .single ⟨"TDTR", 0x4, "mailbox data length register"⟩]⟩ ⟨3, 0x10, some ["0", "1", "2"]⟩,
    .array ⟨0x240, [.array ⟨"FR%s", 0x0, "filter bank register"⟩ ⟨2, 0x4, some ["1", "2"]⟩]⟩
      ⟨28, 0x8, none⟩]

/-- Its last register is the second one of the last filter bank. -/
theorem extractsTrueOffsets_can :
    ((SvdArrays.standard : SvdArrays String).Correct ∧
        canInfo.declared.getLast? = some ("filter bank register", 0x31c)) ∧
      ExtractsTrueOffsets .standard canInfo := by
  refine ⟨⟨SvdArrays.correct_standard, by decide⟩,
    (extractsTrueOffsets_iff SvdArrays.correct_standard canInfo).mpr ⟨?_, by decide, by decide⟩⟩
  intro c hc
  simp [canInfo] at hc

/-- The device registers of a USB core with endpoint 0 in a cluster of its own, some of the
registers of each. -/
def otgFsDeviceInfo : PeripheralInfo String where
  registers := [.single ⟨"DCFG", 0x0, "device configuration register"⟩,
    .single ⟨"DCTL", 0x4, "device control register"⟩]
  clusters := [.single ⟨0x100, [.single ⟨"CTL", 0x0, "control register"⟩,
      .single ⟨"INT", 0x8, "interrupt register"⟩]⟩,
    .array ⟨0x120, [.single ⟨"CTL", 0x0, "control register"⟩,
      .single ⟨"INT", 0x8, "interrupt register"⟩]⟩ ⟨5, 0x20, some ["1", "2", "3", "4", "5"]⟩]

/-- The registers of endpoint 0 are extracted at the base, over the configuration register. -/
theorem not_extractsTrueOffsets_otgFsDevice :
    (∃ registers, extractSvdRegisters .standard otgFsDeviceInfo = some registers ∧
      (registers.map RegisterInfo.entry).take 4 =
        [("device configuration register", 0x0), ("device control register", 0x4),
          ("control register", 0x0), ("interrupt register", 0x8)]) ∧
      ¬ ExtractsTrueOffsets .standard otgFsDeviceInfo := by
  have hyields := yields_extractSvdRegisters SvdArrays.correct_standard otgFsDeviceInfo
  constructor
  · obtain ⟨registers, hregisters⟩ := hyields.exists_of_fits ⟨by decide, by decide⟩
    refine ⟨registers, hregisters, ?_⟩
    rw [hyields.map_key hregisters]
    rfl
  · rintro ⟨registers, hregisters, hperm, -⟩
    rw [hyields.map_key hregisters, extracted_perm_declared_iff] at hperm
    exact absurd (hperm _ List.mem_cons_self (List.cons_ne_nil _ _)) (by decide)

end Stm32Emulator
