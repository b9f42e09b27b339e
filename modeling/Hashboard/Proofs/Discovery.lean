import Mathlib.Data.List.Nodup
import Hashboard.Control.Simulated
import Hashboard.Discovery
import Hashboard.Proofs.Bytes
import Hashboard.Proofs.CoreMap

/-!
# What is found on a control bus

A control bus may answer as it likes, so what is found is told from its answers: a bus that writes them down
answers like the bus itself. The record falls into one visit for each slave of the list, and the boards that are
registered are the ones that the visits show (`discovers`).
-/

namespace Hashboard

/-! ## A bus that keeps a record -/

/-- A request to read a block, how it ended, and the bytes of the buffer then. -/
structure BlockRead where
  register : UInt8
  result : Except ControlError Unit
  block : List UInt8

/-- A request to a control bus with its answer. -/
inductive ControlCall where
  | select (slave : UInt16) (result : Except ControlError Unit)
  | read (read : BlockRead)
  | word (register : UInt8) (result : Except ControlError UInt16)

structure RecordedControl (κ : Type) where
  control : κ
  calls : List ControlCall

namespace RecordedControl

variable {κ : Type} [ControlBus κ]

def start (control : κ) : RecordedControl κ :=
  ⟨control, []⟩

instance : ControlBus (RecordedControl κ) where
  select r slave :=
    let (result, control) := ControlBus.select r.control slave
    (result, ⟨control, r.calls ++ [.select slave result]⟩)
  readBlock r register buffer :=
    let (result, block, control) := ControlBus.readBlock r.control register buffer
    (result, block, ⟨control, r.calls ++ [.read ⟨register, result, block⟩]⟩)
  readWord r register :=
    let (result, control) := ControlBus.readWord r.control register
    (result, ⟨control, r.calls ++ [.word register result]⟩)
  readBlock_length r := ControlBus.readBlock_length r.control

end RecordedControl

namespace Discovery

variable {κ : Type} [ControlBus κ]

/-- A run that ends on a recorded bus, seen from the bus itself. -/
def unrecorded {α : Type} (run : α × List DiscoveryNotice × RecordedControl κ) : α × List DiscoveryNotice × κ :=
  (run.1, run.2.1, run.2.2.control)

theorem readLater_unrecorded (r : RecordedControl κ) (slave : UInt16) (register : UInt8) :
    readLater r.control slave register = unrecorded (readLater r slave register) := by
  simp only [readLater, ControlBus.readBlock]
  rcases ControlBus.readBlock r.control register blankBlock with ⟨_ | _, _, _⟩ <;> rfl

theorem readAll_unrecorded (r : RecordedControl κ) (slave : UInt16) (registers : List UInt8) :
    readAll slave r.control registers = unrecorded (readAll slave r registers) := by
  induction registers generalizing r with
  | nil => rfl
  | cons register rest ih =>
      simp only [readAll, readLater_unrecorded, unrecorded, ih]

theorem probe_unrecorded (r : RecordedControl κ) (slave : UInt16) :
    probe r.control slave = unrecorded (probe r slave) := by
  simp only [probe, ControlBus.select]
  rcases ControlBus.select r.control slave with ⟨_ | _, control⟩
  · rfl
  · simp only [ControlBus.readBlock]
    rcases ControlBus.readBlock control 0 blankBlock with ⟨_ | _, first, control⟩
    · rfl
    · simp only []
      split
      · exact congrArg (fun run => (some (first ++ run.1), run.2))
          (readAll_unrecorded ⟨control, _⟩ slave laterRegisters)
      · rfl

theorem registerAll_unrecorded (r : RecordedControl κ) (slaves : List UInt16) (known : CoreMap) :
    registerAll r.control slaves known = unrecorded (registerAll r slaves known) := by
  induction slaves generalizing r known with
  | nil => rfl
  | cons slave rest ih =>
      simp only [registerAll, probe_unrecorded]
      split
      · rcases probe r slave with ⟨_ | statuses, notices, r'⟩
        · simp only [unrecorded, ih r']
        · simp only [unrecorded]
          cases known.register (asicAt slave) statuses with
          | mk result cores =>
            cases result with
            | error e => rfl
            | ok _ => simp only [unrecorded, ih r']
      · simp only [unrecorded, ih r]

/-- Keeping a record changes nothing. -/
theorem discover_unrecorded (r : RecordedControl κ) (slaves : List UInt16) (known : CoreMap) :
    discover r.control slaves known = unrecorded (discover r slaves known) := by
  simp only [discover, registerAll_unrecorded]
  rcases registerAll r slaves known with ⟨_ | cores, notices, r'⟩ <;> rfl

end Discovery

/-! ## Visits -/

/-- All that the bus is asked about one slave of the list: nothing, or a selection and then some blocks. -/
structure Visit where
  slave : UInt16
  selected : Option (Except ControlError Unit)
  reads : List BlockRead

namespace Visit

def asic (v : Visit) : UInt8 :=
  Discovery.asicAt v.slave

def calls (v : Visit) : List ControlCall :=
  v.selected.toList.map (.select v.slave) ++ v.reads.map .read

/-- The slave could be selected, and its first block could be read and shows a working core. -/
def isBoard (v : Visit) : Bool :=
  v.selected.any Except.isOk &&
    v.reads.any fun r => r.register == 0 && r.result.isOk && r.block.contains 3

/-- The block of a core could be read and shows that the core works. -/
def Shows (v : Visit) (core : Nat) : Prop :=
  ∃ r ∈ v.reads, r.register.toNat = 32 * (core / 32) ∧ r.result = .ok () ∧ r.block[core % 32]? = some 3

/-- What the bus is asked hangs on its answers: only slaves in range are selected, blocks are read only of a
slave that was selected, and the later blocks only of a board. -/
structure Orderly (v : Visit) : Prop where
  selected : v.selected.isSome ↔ 0x20 ≤ v.slave ∧ v.slave ≤ 0x26
  registers : v.reads.map BlockRead.register =
    if v.selected.any Except.isOk then (if v.isBoard then [0, 32, 64, 96, 128, 160] else [0]) else []
  size : ∀ r ∈ v.reads, r.block.length = 32

/-- No core shows as working in a block that could not be read: each block is read but once. -/
theorem Orderly.unreadable {v : Visit} (h : v.Orderly) {r : BlockRead} (hr : r ∈ v.reads)
    (hfailed : r.result ≠ .ok ()) {core : Nat} (hblock : r.register.toNat = 32 * (core / 32)) :
    ¬ v.Shows core := by
  rintro ⟨r', hr', hblock', hread, _⟩
  have honce : (v.reads.map BlockRead.register).Nodup := by
    rw [h.registers]
    repeat' split
    all_goals decide
  have hsame : r = r' :=
    List.inj_on_of_nodup_map honce hr hr' (UInt8.toNat_inj.mp (hblock.trans hblock'.symm))
  exact hfailed (hsame ▸ hread)

end Visit

namespace Discovery

variable {κ : Type} [ControlBus κ]

/-! ## The blocks of a board -/

/-- What a reading counts as: zeros if it failed. -/
def counted (r : BlockRead) : List UInt8 :=
  if r.result.isOk then r.block else blankBlock

theorem counted_length {r : BlockRead} (h : r.block.length = 32) : (counted r).length = 32 := by
  unfold counted
  split
  · exact h
  · rfl

theorem getElem?_counted {r : BlockRead} {k : Nat} :
    (counted r)[k]? = some 3 ↔ r.result = .ok () ∧ r.block[k]? = some 3 := by
  unfold counted
  rcases r with ⟨register, _ | ⟨⟩, block⟩
  · simp [Except.isOk, Except.toBool, blankBlock, List.getElem?_replicate]
  · simp [Except.isOk, Except.toBool]

theorem mem_counted_length {reads : List BlockRead} (h : ∀ r ∈ reads, r.block.length = 32) :
    ∀ part ∈ reads.map counted, part.length = 32 :=
  List.forall_mem_map.mpr fun r hr => counted_length (h r hr)

theorem readLater_record (r : RecordedControl κ) (slave : UInt16) (register : UInt8) :
    ∃ read : BlockRead,
      (readLater r slave register).2.2.calls = r.calls ++ [.read read] ∧
      (readLater r slave register).1 = counted read ∧
      read.register = register ∧ read.block.length = 32 := by
  have hlength := ControlBus.readBlock_length r.control register blankBlock
  simp only [readLater, ControlBus.readBlock]
  revert hlength
  rcases ControlBus.readBlock r.control register blankBlock with ⟨_ | _, block, control⟩ <;> intro hlength
  · exact ⟨⟨register, .error _, block⟩, rfl, rfl, rfl, hlength⟩
  · exact ⟨⟨register, .ok (), block⟩, rfl, rfl, rfl, hlength⟩

/-- The later blocks, as the record tells them. -/
theorem readAll_record (r : RecordedControl κ) (slave : UInt16) (registers : List UInt8) :
    ∃ reads : List BlockRead,
      (readAll slave r registers).2.2.calls = r.calls ++ reads.map .read ∧
      (readAll slave r registers).1 = reads.flatMap counted ∧
      reads.map BlockRead.register = registers ∧ ∀ read ∈ reads, read.block.length = 32 := by
  induction registers generalizing r with
  | nil => exact ⟨[], by simp [readAll]⟩
  | cons register rest ih =>
      obtain ⟨read, hcalls, hblock, hregister, hsize⟩ := readLater_record r slave register
      obtain ⟨reads, hmore, hblocks, hregisters, hsizes⟩ := ih (readLater r slave register).2.2
      refine ⟨read :: reads, ?_, ?_, ?_, ?_⟩
      · rw [hcalls, List.append_assoc] at hmore
        exact hmore
      · rw [List.flatMap_cons, ← hblock, ← hblocks]
        rfl
      · rw [List.map_cons, hregister, hregisters]
      · exact List.forall_mem_cons.mpr ⟨hsize, hsizes⟩

private theorem register_at {k : Nat} {register : UInt8}
    (h : ([0, 32, 64, 96, 128, 160] : List UInt8)[k]? = some register) : register.toNat = 32 * k := by
  rcases k with _ | _ | _ | _ | _ | _ | k <;> simp at h <;> subst h <;> rfl

/-- In the blocks of a board one after the other, a core shows as working if its own block shows it. -/
theorem getElem?_flatMap_counted {v : Visit}
    (hregisters : v.reads.map BlockRead.register = [0, 32, 64, 96, 128, 160])
    (hsize : ∀ r ∈ v.reads, r.block.length = 32) (core : Nat) :
    (v.reads.flatMap counted)[core]? = some 3 ↔ v.Shows core := by
  have hplace : ∀ (k : Nat) (r : BlockRead), v.reads[k]? = some r → r.register.toNat = 32 * k := by
    intro k r hr
    refine register_at ?_
    rw [← hregisters, List.getElem?_map, hr]
    rfl
  rw [List.flatMap_def, Bytes.flatten_getElem? (by decide) (mem_counted_length hsize), List.getElem?_map,
    Option.bind_map, Option.bind_eq_some_iff]
  constructor
  · rintro ⟨r, hr, hshown⟩
    exact ⟨r, List.mem_of_getElem? hr, hplace _ r hr, getElem?_counted.mp hshown⟩
  · rintro ⟨r, hmem, hregister, hshown⟩
    obtain ⟨k, hk⟩ := List.mem_iff_getElem?.mp hmem
    have hcore : k = core / 32 := by
      have := hplace k r hk
      omega
    exact ⟨r, hcore ▸ hk, getElem?_counted.mpr hshown⟩

/-! ## One slave -/

/-- What a visit makes of its slave: no board, or the statuses of its cores. -/
def Yields (v : Visit) : Option (List UInt8) → Prop
  | none => v.isBoard = false
  | some statuses => v.isBoard = true ∧ statuses.length = Wire.coresPerBoard ∧
      ∀ core, statuses[core]? = some 3 ↔ v.Shows core

/-- Nothing but the first block is read of a slave that it does not show as a board. -/
theorem idle_record {slave : UInt16} (hrange : 0x20 ≤ slave ∧ slave ≤ 0x26)
    (result : Except ControlError Unit) {first : List UInt8} (hsize : first.length = 32)
    (hidle : (result.isOk && first.contains 3) = false) :
    let v : Visit := ⟨slave, some (.ok ()), [⟨0, result, first⟩]⟩
    v.Orderly ∧ v.isBoard = false := by
  intro v
  have hboard : v.isBoard = false := by
    show (true && ((true && result.isOk && first.contains 3) || false)) = false
    rw [Bool.true_and, Bool.true_and, Bool.or_false, hidle]
  refine ⟨⟨by simpa [v] using hrange, ?_, by simpa [v] using hsize⟩, hboard⟩
  rw [hboard]
  rfl

/-- All blocks are read of a board, and its statuses are those that the blocks show. -/
theorem board_record {r : RecordedControl κ} {slave : UInt16} (hrange : 0x20 ≤ slave ∧ slave ≤ 0x26)
    {first : List UInt8} (hsize : first.length = 32) (hfirst : first.contains 3 = true)
    {before : List ControlCall}
    (hbefore : r.calls = before ++ [.select slave (.ok ()), .read ⟨0, .ok (), first⟩]) :
    ∃ v : Visit, v.slave = slave ∧ v.Orderly ∧
      (readAll slave r laterRegisters).2.2.calls = before ++ v.calls ∧
      Yields v (some (first ++ (readAll slave r laterRegisters).1)) := by
  obtain ⟨reads, hcalls, hblocks, hregisters, hsizes⟩ := readAll_record r slave laterRegisters
  let v : Visit := ⟨slave, some (.ok ()), ⟨0, .ok (), first⟩ :: reads⟩
  have hboard : v.isBoard = true := by
    show (true && ((true && true && first.contains 3) || _)) = true
    rw [hfirst]
    rfl
  have hall : v.reads.map BlockRead.register = [0, 32, 64, 96, 128, 160] :=
    congrArg (0 :: ·) hregisters
  have hwhole : ∀ read ∈ v.reads, read.block.length = 32 := List.forall_mem_cons.mpr ⟨hsize, hsizes⟩
  have hstatuses : first ++ (readAll slave r laterRegisters).1 = v.reads.flatMap counted := by
    rw [hblocks]
    rfl
  refine ⟨v, rfl, ⟨by simpa [v] using hrange, ?_, hwhole⟩, ?_, hboard, ?_, ?_⟩
  · rw [hall, hboard]
    rfl
  · rw [hcalls, hbefore, List.append_assoc]
    rfl
  · have hcount : v.reads.length = 6 := by
      rw [← List.length_map BlockRead.register, hall]
      rfl
    rw [hstatuses, List.flatMap_def, Bytes.flatten_length (mem_counted_length hwhole), List.length_map, hcount]
    rfl
  · intro core
    rw [hstatuses]
    exact getElem?_flatMap_counted hall hwhole core

theorem probe_record (r : RecordedControl κ) {slave : UInt16} (hrange : 0x20 ≤ slave ∧ slave ≤ 0x26) :
    ∃ v : Visit, v.slave = slave ∧ v.Orderly ∧ (probe r slave).2.2.calls = r.calls ++ v.calls ∧
      Yields v (probe r slave).1 := by
  simp only [probe, ControlBus.select]
  rcases ControlBus.select r.control slave with ⟨error | ⟨⟩, control⟩
  · -- the selection failed
    exact ⟨⟨slave, some (.error error), []⟩, rfl, ⟨by simpa using hrange, rfl, by simp⟩, rfl, rfl⟩
  · have hlength := ControlBus.readBlock_length control 0 blankBlock
    simp only [ControlBus.readBlock]
    revert hlength
    rcases ControlBus.readBlock control 0 blankBlock with ⟨error | ⟨⟩, first, control⟩ <;> intro hlength
    · -- the first block cannot be read
      obtain ⟨horderly, hboard⟩ := idle_record hrange (.error error) hlength rfl
      exact ⟨_, rfl, horderly, List.append_assoc _ _ _, hboard⟩
    · cases hfirst : first.contains Wire.coreStatusOk with
      | true =>
          simp only [hfirst, if_true]
          exact board_record hrange hlength hfirst (List.append_assoc _ _ _)
      | false =>
          obtain ⟨horderly, hboard⟩ := idle_record hrange (.ok ()) hlength hfirst
          simp only [hfirst, Bool.false_eq_true, if_false]
          exact ⟨_, rfl, horderly, List.append_assoc _ _ _, hboard⟩

/-! ## The boards that are registered -/

/-- A board as a visit has shown it. -/
structure Entered (v : Visit) (first : Nat) (board : Board) : Prop where
  asic : board.asic = v.asic
  first : board.first = first
  size : board.enabled.length = Wire.coresPerBoard
  enabled : ∀ core, board.enabled[core]? = some true ↔ v.Shows core

/-- The boards that the visits have shown come behind the known ones, in the order of the visits. -/
def Extends (known : CoreMap) (visits : List Visit) (cores : CoreMap) : Prop :=
  ∃ boards, cores = known.withBoards boards ∧
    boards.length = (visits.filter Visit.isBoard).length ∧
    ∀ k v board, (visits.filter Visit.isBoard)[k]? = some v → boards[k]? = some board →
      Entered v (known.size + Wire.coresPerBoard * k) board

/-- Once these visits are over, there is a board with this asic. -/
def Taken (known : CoreMap) (visits : List Visit) (asic : UInt8) : Prop :=
  asic ∈ known.byAsic ∨ asic ∈ (visits.filter Visit.isBoard).map Visit.asic

/-- After the visits in front, the visit shows a board whose asic is taken. -/
def Clashes (known : CoreMap) (front : List Visit) (v : Visit) : Prop :=
  v.isBoard = true ∧ Taken known front v.asic

/-- What the visits of a list of slaves come to: they go on to the end of the list or to the first clash. -/
def Registers (known : CoreMap) (slaves : List UInt16) (visits : List Visit) :
    Except CoreMapError CoreMap → Prop
  | .ok cores => visits.map Visit.slave = slaves ∧ Extends known visits cores ∧
      ∀ front v back, visits = front ++ v :: back → ¬ Clashes known front v
  | .error (.duplicateAsic asic) => visits.map Visit.slave <+: slaves ∧
      ∃ front v, visits = front ++ [v] ∧ v.asic = asic ∧ Clashes known front v

variable {known cores : CoreMap} {slaves : List UInt16} {visits : List Visit} {v : Visit}

theorem entered_of_yields {statuses : List UInt8} (h : Yields v (some statuses)) (first : Nat) :
    Entered v first ⟨v.asic, first, statuses.map (· == Wire.coreStatusOk)⟩ := by
  obtain ⟨_, hsize, hshows⟩ := h
  refine ⟨rfl, rfl, by simpa using hsize, ?_⟩
  intro core
  rw [← hshows core, List.getElem?_map]
  cases statuses[core]? with
  | none => simp
  | some status => simp [Wire.coreStatusOk]

theorem Entered.unreadable {board : Board} {first core : Nat} (h : Entered v first board) (hv : v.Orderly)
    {r : BlockRead} (hr : r ∈ v.reads) (hfailed : r.result ≠ .ok ())
    (hblock : r.register.toNat = 32 * (core / 32)) : board.enabled[core]? ≠ some true :=
  fun henabled => hv.unreadable hr hfailed hblock ((h.enabled core).mp henabled)

theorem Extends.isEmpty_iff (h : Extends known visits cores) :
    cores.byAsic.isEmpty = true ↔ known.byAsic.isEmpty = true ∧ visits.filter Visit.isBoard = [] := by
  obtain ⟨boards, rfl, hcount, _⟩ := h
  rw [CoreMap.isEmpty_withBoards, ← List.length_eq_zero_iff, hcount, List.length_eq_zero_iff]

theorem registers_nil (known : CoreMap) : Registers known [] [] (.ok known) :=
  ⟨rfl, ⟨[], rfl, rfl, by simp⟩, by simp⟩

/-- One more visit in front, if it does not clash. -/
theorem Registers.cons {known' : CoreMap} {result : Except CoreMapError CoreMap}
    (h : Registers known' slaves visits result) (hfirst : ¬ Clashes known [] v)
    (htaken : ∀ front asic, Taken known (v :: front) asic ↔ Taken known' front asic)
    (hextends : ∀ cores, Extends known' visits cores → Extends known (v :: visits) cores) :
    Registers known (v.slave :: slaves) (v :: visits) result := by
  have hclashes : ∀ front w, Clashes known (v :: front) w ↔ Clashes known' front w := by
    intro front w
    rw [Clashes, Clashes, htaken]
  cases result with
  | ok cores =>
      obtain ⟨hslaves, hextended, hnone⟩ := h
      refine ⟨congrArg (v.slave :: ·) hslaves, hextends cores hextended, ?_⟩
      intro front w back he
      cases front with
      | nil =>
          obtain ⟨rfl, rfl⟩ := List.cons.inj he
          exact hfirst
      | cons u front =>
          obtain ⟨rfl, rfl⟩ := List.cons.inj he
          exact fun hw => hnone front w back rfl ((hclashes front w).mp hw)
  | error e =>
      obtain ⟨hslaves, front, w, rfl, hasic, hw⟩ := h
      exact ⟨(List.prefix_cons_inj v.slave).mpr hslaves, v :: front, w, rfl, hasic,
        (hclashes front w).mpr hw⟩

theorem Registers.skip {result : Except CoreMapError CoreMap} (h : Registers known slaves visits result)
    (hv : v.isBoard = false) : Registers known (v.slave :: slaves) (v :: visits) result := by
  have hfilter : ∀ front : List Visit, (v :: front).filter Visit.isBoard = front.filter Visit.isBoard :=
    fun front => List.filter_cons_of_neg (by simp [hv])
  refine h.cons ?_ ?_ ?_
  · rintro ⟨hboard, _⟩
    exact Bool.false_ne_true (hv.symm.trans hboard)
  · intro front asic
    rw [Taken, hfilter]
    rfl
  · intro cores hextends
    rw [Extends, hfilter]
    exact hextends

theorem Registers.enter {result : Except CoreMapError CoreMap} {board : Board}
    (h : Registers (known.withBoard board) slaves visits result) (hv : v.isBoard = true)
    (hentered : Entered v known.size board) (hnew : v.asic ∉ known.byAsic) :
    Registers known (v.slave :: slaves) (v :: visits) result := by
  have hfilter : ∀ front : List Visit, (v :: front).filter Visit.isBoard = v :: front.filter Visit.isBoard :=
    fun front => List.filter_cons_of_pos hv
  refine h.cons ?_ ?_ ?_
  · rintro ⟨_, hmem⟩
    exact hnew (by simpa [Taken] using hmem)
  · intro front asic
    rw [Taken, Taken, hfilter, CoreMap.mem_withBoard, hentered.asic, List.map_cons, List.mem_cons, eq_comm,
      or_left_comm, or_assoc]
  · rintro cores ⟨boards, hboards, hcount, hall⟩
    rw [Extends, hfilter]
    refine ⟨board :: boards, hboards, congrArg (· + 1) hcount, ?_⟩
    intro k w b hw hb
    cases k with
    | zero =>
        cases hw
        cases hb
        exact hentered
    | succ k =>
        have hnext := hall k w b hw hb
        rw [CoreMap.size_withBoard, hentered.size, Nat.add_assoc] at hnext
        rw [Nat.mul_succ, Nat.add_comm (_ * k)]
        exact hnext

theorem inRange_iff {slave : UInt16} : inRange slave = true ↔ 0x20 ≤ slave ∧ slave ≤ 0x26 :=
  decide_eq_true_iff

/-- The record of a discovery falls into visits, and these tell what is registered. -/
theorem registerAll_record (r : RecordedControl κ) (slaves : List UInt16) (known : CoreMap) :
    ∃ visits : List Visit, (∀ v ∈ visits, v.Orderly) ∧
      (registerAll r slaves known).2.2.calls = r.calls ++ visits.flatMap Visit.calls ∧
      Registers known slaves visits (registerAll r slaves known).1 := by
  induction slaves generalizing r known with
  | nil => exact ⟨[], by simp, by simp [registerAll], registers_nil known⟩
  | cons slave rest ih =>
      rw [registerAll]
      by_cases hrange : 0x20 ≤ slave ∧ slave ≤ 0x26
      · rw [if_pos (inRange_iff.mpr hrange)]
        obtain ⟨v, rfl, hv, hcalls, hyields⟩ := probe_record r hrange
        rcases hprobe : probe r v.slave with ⟨_ | statuses, notices, r'⟩ <;> rw [hprobe] at hcalls hyields
        · obtain ⟨visits, horderly, hmore, hregisters⟩ := ih r' known
          rw [hcalls, List.append_assoc] at hmore
          exact ⟨v :: visits, List.forall_mem_cons.mpr ⟨hv, horderly⟩, hmore, hregisters.skip hyields⟩
        · have hboard : v.isBoard = true := hyields.1
          rcases CoreMap.register_cases known (asicAt v.slave) statuses with ⟨htaken, hclash⟩ | ⟨hfree, hnew⟩
          · simp only [hclash]
            refine ⟨[v], by simpa using hv, by simpa using hcalls, by simp, [], v, rfl, rfl, hboard, ?_⟩
            exact .inl htaken
          · obtain ⟨visits, horderly, hmore, hregisters⟩ := ih r' _
            rw [hcalls, List.append_assoc] at hmore
            simp only [hnew]
            exact ⟨v :: visits, List.forall_mem_cons.mpr ⟨hv, horderly⟩, hmore,
              hregisters.enter hboard (entered_of_yields hyields _) hfree⟩
      · rw [if_neg (mt inRange_iff.mp hrange)]
        obtain ⟨visits, horderly, hcalls, hregisters⟩ := ih r known
        let v : Visit := ⟨slave, none, []⟩
        have hv : v.Orderly := ⟨by simpa [v] using hrange, rfl, by simp [v]⟩
        exact ⟨v :: visits, List.forall_mem_cons.mpr ⟨hv, horderly⟩, hcalls, hregisters.skip rfl⟩

/-- What is found on any control bus, told from its answers. -/
theorem discovers (control : κ) (slaves : List UInt16) (known : CoreMap) :
    let run := discover (RecordedControl.start control) slaves known
    discover control slaves known = (run.1, run.2.1, run.2.2.control) ∧
    ∃ visits : List Visit,
      run.2.2.calls = visits.flatMap Visit.calls ∧
      (∀ v ∈ visits, v.Orderly) ∧
      visits.map Visit.slave <+: slaves ∧
      let found := visits.filter Visit.isBoard
      ((∃ e, run.1 = .error e) ↔
        (∃ front v back, visits = front ++ v :: back ∧ Clashes known front v) ∨
          (known.byAsic.isEmpty = true ∧ found = [])) ∧
      (∀ asic, run.1 = .error (.coreMap (.duplicateAsic asic)) →
        ∃ front v, visits = front ++ [v] ∧ v.asic = asic ∧ Clashes known front v) ∧
      (run.1 = .error .noBoards → visits.map Visit.slave = slaves) ∧
      ∀ cores, run.1 = .ok cores → visits.map Visit.slave = slaves ∧
        ∃ boards, cores = known.withBoards boards ∧ boards.length = found.length ∧
          ∀ k v board, found[k]? = some v → boards[k]? = some board →
            board.asic = (v.slave - 0x20).toUInt8 ∧
            board.first = known.size + 192 * k ∧
            board.enabled.length = 192 ∧
            (∀ core, board.enabled[core]? = some true ↔
              ∃ r ∈ v.reads, r.register.toNat = 32 * (core / 32) ∧ r.result = .ok () ∧
                r.block[core % 32]? = some 3) ∧
            ∀ r ∈ v.reads, r.result ≠ .ok () → ∀ core, r.register.toNat = 32 * (core / 32) →
              board.enabled[core]? ≠ some true := by
  intro run
  refine ⟨discover_unrecorded (.start control) slaves known, ?_⟩
  obtain ⟨visits, horderly, hcalls, hregisters⟩ :=
    registerAll_record (.start control) slaves known
  have hrun : run = discover (.start control) slaves known := rfl
  unfold discover at hrun
  rcases hall : registerAll (RecordedControl.start control) slaves known with ⟨⟨asic⟩ | cores, notices, r⟩ <;>
    rw [hall] at hrun hcalls hregisters
  · obtain ⟨hslaves, front, v, hvisits, hasic, hclash⟩ := hregisters
    simp only [hrun]
    refine ⟨visits, hcalls, horderly, hslaves, ?_, ?_, nofun, nofun⟩
    · exact ⟨fun _ => .inl ⟨front, v, [], hvisits, hclash⟩, fun _ => ⟨_, rfl⟩⟩
    · rintro _ ⟨⟩
      exact ⟨front, v, hvisits, hasic, hclash⟩
  · obtain ⟨hslaves, hextends, hnone⟩ := hregisters
    simp only [hrun]
    refine ⟨visits, hcalls, horderly, hslaves ▸ List.prefix_rfl, ?_, ?_, fun _ => hslaves, ?_⟩
    · rw [← hextends.isEmpty_iff]
      constructor
      · rintro ⟨e, he⟩
        by_cases hnothing : cores.byAsic.isEmpty = true
        · exact .inr hnothing
        · rw [if_neg hnothing] at he
          nomatch he
      · rintro (⟨front, v, back, hvisits, hclash⟩ | hnothing)
        · exact absurd hclash (hnone front v back hvisits)
        · exact ⟨.noBoards, if_pos hnothing⟩
    · intro asic he
      split at he <;> nomatch he
    · intro cores' he
      split at he
      · nomatch he
      · cases he
        obtain ⟨boards, hboards, hcount, hentered⟩ := hextends
        refine ⟨hslaves, boards, hboards, hcount, ?_⟩
        intro k v board hv hb
        have hmade := hentered k v board hv hb
        have hvisit : v.Orderly := horderly v (List.mem_of_mem_filter (List.mem_of_getElem? hv))
        exact ⟨hmade.asic, hmade.first, hmade.size, hmade.enabled,
          fun r hr hfailed core hblock => hmade.unreadable hvisit hr hfailed hblock⟩

theorem registerAll_of_none {control : κ} {slave : UInt16} (hrange : inRange slave = true)
    (h : (probe control slave).1 = none) :
    (registerAll control (slave :: slaves) known).1 = (registerAll (probe control slave).2.2 slaves known).1 := by
  rw [registerAll, if_pos hrange]
  rcases hprobe : probe control slave with ⟨_ | statuses, notices, control'⟩
  · rfl
  · rw [hprobe] at h
    nomatch h

theorem registerAll_of_some {control : κ} {slave : UInt16} {statuses : List UInt8}
    (hrange : inRange slave = true) (h : (probe control slave).1 = some statuses)
    (hok : known.register (asicAt slave) statuses = (.ok (), cores)) :
    (registerAll control (slave :: slaves) known).1 = (registerAll (probe control slave).2.2 slaves cores).1 := by
  rw [registerAll, if_pos hrange]
  rcases hprobe : probe control slave with ⟨_ | found, notices, control'⟩
  · rw [hprobe] at h
    nomatch h
  · rw [hprobe] at h
    cases h
    simp only [hok]

theorem discover_of_ok {control : κ} (h : (registerAll control slaves known).1 = .ok cores)
    (hsome : cores.byAsic.isEmpty = false) : (discover control slaves known).1 = .ok cores := by
  unfold discover
  rcases hrun : registerAll control slaves known with ⟨result, notices, control'⟩
  rw [hrun] at h
  cases h
  simp only [hsome, Bool.false_eq_true, if_false]

/-- One board, and one of its blocks cannot be read. -/
theorem discovers_broken_block :
    let bus := SimulatedControl.start [⟨0x21, List.replicate 192 3, none, [64], none⟩]
    let board : Board := ⟨1, 0, (List.range 192).map fun core => core / 32 != 2⟩
    (discover bus [0x20, 0x21] .empty).1 = .ok (CoreMap.empty.withBoard board) ∧
      ∃ v : Visit, v.Orderly ∧ v.isBoard = true ∧ (v.slave - 0x20).toUInt8 = 1 ∧
        ∀ core, board.enabled[core]? = some true ↔ v.Shows core := by
  intro bus board
  let r := RecordedControl.start bus
  let statuses : List UInt8 := (List.range 192).map fun core => if core / 32 = 2 then 0 else 3
  have hprobe : (probe r 0x20).1 = none := by rfl
  have hboard : (probe (probe r 0x20).2.2 0x21).1 = some statuses := by rfl
  have hregister : CoreMap.empty.register (asicAt 0x21) statuses =
      (.ok (), CoreMap.empty.withBoard board) := by
    rcases CoreMap.register_cases .empty (asicAt 0x21) statuses with ⟨htaken, _⟩ | ⟨_, hok⟩
    · simp [CoreMap.empty] at htaken
    · exact hok
  have hall : (registerAll r [0x20, 0x21] .empty).1 = .ok (CoreMap.empty.withBoard board) :=
    (registerAll_of_none rfl hprobe).trans (registerAll_of_some rfl hboard hregister)
  have hfound : (discover r [0x20, 0x21] .empty).1 = .ok (CoreMap.empty.withBoard board) :=
    discover_of_ok hall (by simp [CoreMap.withBoard])
  obtain ⟨hsame, visits, _, horderly, _, _, _, _, hok⟩ := discovers bus [0x20, 0x21] .empty
  obtain ⟨_, boards, hboards, hcount, hshown⟩ := hok _ hfound
  have hcores : board.cores = boards.flatMap Board.cores := by
    simpa [CoreMap.withBoard, CoreMap.empty] using
      (congrArg (fun m => m.cores.toList) hboards).trans (CoreMap.cores_withBoards _ _)
  cases boards with
  | nil => exact absurd hcores (List.cons_ne_nil _ _)
  | cons first rest =>
      obtain ⟨v, more, hv⟩ := List.exists_cons_of_length_pos (Nat.lt_of_lt_of_eq (Nat.succ_pos rest.length) hcount)
      have hmem : v ∈ visits.filter Visit.isBoard := hv ▸ List.mem_cons_self
      obtain ⟨hasic, _, hsize, hshows, _⟩ := hshown 0 v first (by rw [hv]; rfl) rfl
      have henabled : board.enabled = first.enabled := by
        have hsame := congrArg (List.map Core.enabled) hcores
        rw [List.flatMap_cons, List.map_append, board.map_enabled_cores, first.map_enabled_cores] at hsame
        exact (List.append_inj ((List.append_nil _).trans hsame) (hsize ▸ rfl)).1
      have hone : first.asic = 1 := by
        obtain ⟨asic, number, enabled⟩ := first
        subst henabled
        have hhead : some 1 = some asic := congrArg (fun cores => cores.head?.map Core.asic) hcores
        exact (Option.some.inj hhead).symm
      exact ⟨hsame ▸ hfound, v, horderly v (List.mem_of_mem_filter hmem), List.of_mem_filter hmem,
        hasic.symm.trans hone, henabled ▸ hshows⟩

end Discovery

end Hashboard
