import Chip8.Proofs.KeyWait
import Chip8.Proofs.Lossless

/-!
# The listing is what the machine runs

Each line of a listing tells what the machine fetches at the address of the line
(`Listing.fetch_of_line`). Only two instructions write to memory, so the lines go on telling that
until one of these is executed: `Machine.Unwritten` is the invariant of such a run. It also says
that a machine held at an instruction is held at a wait for a key, so a line that shows no
instruction is never one the machine is held at.
-/

namespace Chip8
set_option autoImplicit false

/-- What the machine fetches at the address of a line that shows this item. A byte left over is
followed by a zero. -/
def ListingItem.fetched : ListingItem → Except Fault Instruction
  | .instruction shown => .ok shown
  | .word value => .error (.illegalOpcode value.toNat)
  | .byte value => Opcode.decode (.ofNat (value.toNat * 256))

namespace ListingItem

theorem fetched_eq_ok_iff {item : ListingItem} (whole : ∀ last, item ≠ .byte last)
    {op : Instruction} : item.fetched = .ok op ↔ item = .instruction op := by
  cases item with
  | instruction shown => simp [fetched]
  | word value => simp [fetched]
  | byte last => exact absurd rfl (whole last)

theorem fetched_eq_illegal_iff {item : ListingItem} (whole : ∀ last, item ≠ .byte last)
    {word : UInt16} :
    item.fetched = .error (.illegalOpcode word.toNat) ↔ item = .word word := by
  cases item with
  | instruction shown => simp [fetched]
  | word value => simp [fetched, UInt16.toNat_inj]
  | byte last => exact absurd rfl (whole last)

end ListingItem

namespace Listing

theorem fetched_itemOfWord (word : UInt16) : (itemOfWord word).fetched = Opcode.decode word := by
  unfold itemOfWord Opcode.decode
  cases Opcode.instruction? word <;> rfl

/-- Two bytes to an item, the last byte of an odd program by itself. -/
theorem getElem_items {program : List UInt8} {i : Nat} (inside : i < (items program).length) :
    (2 * i + 1 < program.length ∧ (items program)[i] = itemOfWord (.ofNat
        ((program.getD (2 * i) 0).toNat * 256 + (program.getD (2 * i + 1) 0).toNat))) ∨
      (2 * i + 1 = program.length ∧ (items program)[i] = .byte (program.getD (2 * i) 0)) := by
  -- Along the listing: each item but the last takes two bytes off the program.
  induction program using items.induct generalizing i with
  | case1 high low rest ih =>
    cases i with
    | zero => exact .inl ⟨by simp, rfl⟩
    | succ i =>
      have further : i < (items rest).length := Nat.lt_of_succ_lt_succ inside
      have double : 2 * (i + 1) = 2 * i + 2 := by omega
      rcases ih further with ⟨below, item⟩ | ⟨last, item⟩
      · refine .inl ⟨by simp only [List.length_cons]; omega, ?_⟩
        rw [double]
        exact item
      · refine .inr ⟨by simp only [List.length_cons]; omega, ?_⟩
        rw [double]
        exact item
  | case2 last =>
    have first : i = 0 := Nat.lt_one_iff.1 inside
    subst first
    exact .inr ⟨rfl, rfl⟩
  | case3 => cases inside

/-- The item at an odd end, and no other, is a byte: the last one of the program. -/
theorem eq_byte_iff {program : List UInt8} {i : Nat} (inside : i < (items program).length)
    (last : UInt8) : (items program)[i] = .byte last ↔
      2 * i + 1 = program.length ∧ program[2 * i]? = some last := by
  rcases getElem_items inside with ⟨below, item⟩ | ⟨odd, item⟩
  · refine iff_of_false (fun byte => ?_) fun odd => absurd odd.1 (Nat.ne_of_lt below)
    exact itemOfWord_ne_byte _ last (item.symm.trans byte)
  · rw [item]
    have stands : 2 * i < program.length := by omega
    simp [odd, stands]

/-- As long as nothing was written to memory, a line tells what the machine fetches there. -/
theorem fetch_of_line {m : Machine} {program : List UInt8} {i : Nat}
    (fits : program.length ≤ programLimit) (memory : m.memory = .image program)
    (inside : i < (items program).length) (pc : m.pc = programStart + 2 * i) :
    m.fetch = (items program)[i].fetched := by
  -- The largest program ends at an even address, so a byte left over has one after it.
  have room : programStart + 2 * i + 1 < memorySize := by
    have before := length_items program ▸ inside
    unfold programLimit programStart memorySize at *
    omega
  rw [Machine.fetch_of_image memory pc room]
  rcases getElem_items inside with ⟨-, item⟩ | ⟨last, item⟩
  · rw [item, fetched_itemOfWord]
  · have missing : program.getD (2 * i + 1) 0 = 0 := by
      rw [last]
      simp
    rw [item, missing, ListingItem.fetched, UInt8.toNat_zero, Nat.add_zero]

theorem length_lines (shown : List ListingItem) (start : Nat) :
    (lines shown start).length = shown.length := by
  simp [lines]

theorem getElem_lines {shown : List ListingItem} {start i : Nat} (listed : i < shown.length)
    (inside : i < (lines shown start).length) :
    (lines shown start)[i] = ⟨programStart + 2 * (start + i), shown[i]⟩ := by
  simp [lines]

end Listing

namespace Machine

variable {m after : Machine} {program : List UInt8} {call : Call}

theorem settled_memory (m : Machine) : m.settled.memory = m.memory := by
  rw [settled_eq, withMode]

/-- A machine into which the program was loaded and that executed no instruction that writes to
memory. One that failed to write may have written before it failed. -/
structure Unwritten (program : List UInt8) (m : Machine) : Prop where
  sound : m.Sound
  size : m.programSize = some program.length
  memory : m.fault = none → m.memory = .image program
  held : m.keypad.wait ≠ .idle → ∃ x, m.fetch = .ok (.awaitKey x)

theorem unwritten_loaded (m : Machine) (fits : program.length ≤ programLimit) :
    (m.loaded program).Unwritten program :=
  ⟨m.sound_loaded fits, rfl, fun _ => rfl, fun waits => absurd rfl waits⟩

/-- Whoever has come as far, and waits if the other does, is unwritten too. -/
theorem Unwritten.of_work (unwritten : m.Unwritten program) (sound : after.Sound)
    (work : after.work = m.work) (waits : after.keypad.wait = .idle ↔ m.keypad.wait = .idle) :
    after.Unwritten program := by
  have memory : after.memory = m.memory := congrArg Work.memory work
  refine ⟨sound, (programSize_of_work work).trans unwritten.size, ?_, fun waiting => ?_⟩
  · rw [memory, fault_of_work work]
    exact unwritten.memory
  · rw [fetch_of_work work]
    exact unwritten.held (mt waits.2 waiting)

/-- A loaded machine that did not halt and waits for no key runs once it goes on. -/
theorem exists_running_of_looks (sound : m.Sound) (loaded : m.mode ≠ .idle)
    (going : m.mode ≠ .halted) (free : m.keypad.wait = .idle)
    (looks : call.looks m.isPaused = true) :
    ∃ before : Machine, before.work = m.work ∧ before.mode = .running ∧
      m.perform call =
        (if m.isPaused then before.step.1.pause else before.step.1, .cycle before.step.2) := by
  obtain ⟨before, -, work, -, mode, performed⟩ := exists_step_of_looks sound looks
  refine ⟨before, work, ?_, performed⟩
  have unheld : ¬ m.AwaitsKey := fun held => sound.wait_iff.2 held free
  rw [mode]
  cases stands : m.mode with
  | running => simp [isPaused, stands]
  | paused =>
    simp only [isPaused, stands, decide_true, if_true]
    have goesOn := sound.resumeTo
    cases resumeTo : m.resumeTo with
    | running => rfl
    | awaitingKey => exact absurd (.inr ⟨stands, resumeTo⟩) unheld
    | idle | paused | halted =>
      rw [resumeTo] at goesOn
      cases goesOn
  | awaitingKey => exact absurd (.inl stands) unheld
  | idle => exact absurd stands loaded
  | halted => exact absurd stands going

/-- A step that executes no instruction that writes to memory. -/
theorem StepEffect.unwritten {outcome : Except Fault Cycle}
    (effect : m.StepEffect after outcome) (unwritten : m.Unwritten program)
    (plain : ∀ i, outcome = .ok (.executed i) → ¬ i.Stores) : after.Unwritten program := by
  have sound := effect.sound unwritten.sound
  have size := effect.programSize.trans unwritten.size
  have held (free : after.mode ≠ .awaitingKey) (awake : after.mode ≠ .paused)
      (waits : after.keypad.wait ≠ .idle) : ∃ x, after.fetch = .ok (.awaitKey x) :=
    absurd (sound.wait_idle_of_ne free awake) waits
  cases effect with
  | idle | halted | paused | awaiting => exact unwritten
  | received =>
    refine ⟨sound, size, ?_, held (settled_mode_ne nofun nofun) (settled_mode_ne nofun nofun)⟩
    rw [settled_fault, settled_memory]
    exact unwritten.memory
  | left => exact ⟨sound, size, unwritten.memory, held nofun nofun⟩
  -- What failed may have written before it failed, but it left a fault.
  | unfetched | refused => exact ⟨sound, size, nofun, held nofun nofun⟩
  | held mode inside fetch => exact ⟨sound, size, unwritten.memory, fun _ => ⟨_, fetch⟩⟩
  | @executed mode inside i progress pc fetch execute moves lands =>
    have same := m.execute_sameControl i
    have running : (m.execute i).1.mode = .running := same.mode.trans mode
    refine ⟨sound, size, ?_, held (settled_mode_ne ?_ nofun) (settled_mode_ne ?_ nofun)⟩
    · rw [settled_fault, settled_memory]
      change (m.execute i).1.fault = none → (m.execute i).1.memory = _
      rw [same.fault, (m.execute_spares i).memory (plain i rfl)]
      exact unwritten.memory
    · exact fun other => nomatch running.symm.trans other
    · exact fun other => nomatch running.symm.trans other

/-- A call that makes no step and loads nothing brings the program no further, and starts or ends
no wait. -/
theorem perform_quiet (stays : call.isLoad = false) (quiet : call.looks m.isPaused = false) :
    (m.perform call).1.work = m.work ∧
      ((m.perform call).1.keypad.wait = .idle ↔ m.keypad.wait = .idle) := by
  cases call with
  | load => cases stays
  | singleStep => cases quiet
  | step =>
    have paused : m.mode = .paused := by simpa [Call.looks, isPaused_iff] using quiet
    have stands : (m.perform .step).1 = m := congrArg Prod.fst (step_of_paused paused)
    rw [stands]
    exact ⟨rfl, Iff.rfl⟩
  | tick now =>
    have paused : m.mode = .paused := by simpa [Call.looks, isPaused_iff] using quiet
    have synced := (m.syncTimers_sameControl now).mode.trans paused
    have stands : (m.perform (.tick now)).1 = m.syncTimers now :=
      congrArg Prod.fst (step_of_paused synced)
    rw [stands, syncTimers_keypad]
    exact ⟨m.syncTimers_work now, Iff.rfl⟩
  | syncTimers now => exact ⟨m.syncTimers_work now, by rw [perform, syncTimers_keypad]⟩
  | pause => exact ⟨m.pause_work, by rw [perform, pause_keypad]⟩
  | resume => exact ⟨m.resume_work, by rw [perform, resume_keypad]⟩
  | press key =>
    refine ⟨work_of_reaches rfl, ?_⟩
    simp only [perform, press, Keypad.press]
    split
    · exact KeyWait.press_eq_idle_iff
    · exact Iff.rfl
  | release key =>
    refine ⟨work_of_reaches rfl, ?_⟩
    simp only [perform, release, Keypad.release]
    split <;> exact Iff.rfl
  | takeFrame => exact ⟨m.takeFrame_work, Iff.rfl⟩

theorem Unwritten.pause (unwritten : m.Unwritten program) : m.pause.Unwritten program :=
  unwritten.of_work unwritten.sound.pause m.pause_work (by rw [pause_keypad])

/-- A call that loads nothing and executes no instruction that writes to memory. -/
theorem Unwritten.perform (unwritten : m.Unwritten program) (stays : call.isLoad = false)
    (plain : ∀ i, (m.perform call).2 = .cycle (.ok (.executed i)) → ¬ i.Stores) :
    (m.perform call).1.Unwritten program := by
  cases looks : call.looks m.isPaused with
  | false =>
    obtain ⟨work, waits⟩ := perform_quiet stays looks
    exact unwritten.of_work (unwritten.sound.perform call) work waits
  | true =>
    obtain ⟨before, sound, work, keypad, -, performed⟩ :=
      exists_step_of_looks unwritten.sound looks
    rw [performed] at plain ⊢
    have readied : before.Unwritten program := unwritten.of_work sound work (by rw [keypad])
    have stepped : before.step.1.Unwritten program :=
      (step_effect sound).unwritten readied fun i executed => plain i (congrArg _ executed)
    cases m.isPaused with
    | false => exact stepped
    | true => exact stepped.pause

theorem Unwritten.history {calls : List Call} (unwritten : m.Unwritten program)
    (stays : ∀ call ∈ calls, call.isLoad = false)
    (plain : ∀ i, .cycle (.ok (.executed i)) ∈ m.answers calls → ¬ i.Stores) :
    (m.after calls).Unwritten program := by
  induction calls generalizing m with
  | nil => exact unwritten
  | cons call rest ih =>
    obtain ⟨here, later⟩ := List.forall_mem_cons.1 stays
    have performed := unwritten.perform here fun i executed =>
      plain i (List.mem_cons.2 (.inl executed.symm))
    exact ih performed later fun i executed => plain i (List.mem_cons_of_mem _ executed)

/-- The instruction that a call executes is the one on the line where the machine stands. -/
theorem Unwritten.fetched_of_executed (unwritten : m.Unwritten program) {i : Nat}
    (inside : i < (Listing.items program).length) (pc : m.pc = programStart + 2 * i)
    {op : Instruction} (executed : (m.perform call).2 = .cycle (.ok (.executed op))) :
    (Listing.items program)[i].fetched = .ok op := by
  obtain ⟨before, ready, outcome, -⟩ := exists_step unwritten.sound executed
  have effect := step_effect ready.sound
  rw [outcome] at effect
  obtain ⟨mode, fetch⟩ : before.mode = .running ∧ before.fetch = .ok op := by
    generalize before.step.1 = after at effect
    cases effect with
    | held mode _ fetch | executed mode _ fetch => exact ⟨mode, fetch⟩
  have fault : m.fault = none :=
    (fault_of_work ready.work).symm.trans (ready.sound.fault_none (by simp [mode]))
  have fits := unwritten.sound.program _ unwritten.size
  rw [← Listing.fetch_of_line fits (unwritten.memory fault) inside pc, ← fetch_of_work ready.work,
    fetch]

/-- Where the line shows no instruction, a call that has the machine go on fails. -/
theorem Unwritten.failed_of_line (unwritten : m.Unwritten program) {i : Nat}
    (inside : i < (Listing.items program).length) (pc : m.pc = programStart + 2 * i) {fault : Fault}
    (illegal : (Listing.items program)[i].fetched = .error fault)
    (looks : call.looks m.isPaused = true) (going : m.mode ≠ .halted) :
    (m.perform call).2 = .cycle (.error fault) := by
  have loaded : m.mode ≠ .idle := fun idle =>
    nomatch unwritten.size.symm.trans (unwritten.sound.idle_iff.1 idle)
  have noFault := unwritten.sound.fault_none going
  have fits := unwritten.sound.program _ unwritten.size
  have fetch : m.fetch = .error fault :=
    (Listing.fetch_of_line fits (unwritten.memory noFault) inside pc).trans illegal
  have free : m.keypad.wait = .idle := Decidable.of_not_not fun waits => by
    obtain ⟨x, wait⟩ := unwritten.held waits
    cases fetch.symm.trans wait
  obtain ⟨before, work, running, performed⟩ :=
    exists_running_of_looks unwritten.sound loaded going free looks
  have there : before.InProgram := by
    refine ⟨_, (programSize_of_work work).trans unwritten.size, ?_⟩
    have length := Listing.length_items program
    have stands : before.pc = programStart + 2 * i :=
      (congrArg Register.value (pc_of_work work)).trans pc
    omega
  rw [performed, step_of_unfetched running there ((fetch_of_work work).trans fetch)]

/-- A program that fits has a listing with a line for every two bytes, a byte left over by itself,
and the listing is what the machine runs: with the program counter at the address of a line the
loaded machine fetches what the line shows, be it an instruction or a word that encodes none. As
long as no instruction was executed that writes to memory, whatever else was done short of another
load, an instruction that is executed at the address of a line is the one of the line, and where
the line shows none the machine fails with the fault of its word. A program too large has no
listing and is not loaded, over the same fault. -/
theorem listing_runs (m₀ : Machine) (program : List UInt8) :
    (program.length ≤ programLimit → ∃ lines loaded,
      Listing.ofProgram program = .ok lines ∧ m₀.load program = .ok loaded ∧
      lines.length = (program.length + 1) / 2 ∧
      ∀ (i : Nat) (inside : i < lines.length), let line := lines[i]
        line.address = programStart + 2 * i ∧
        (∀ last, line.item = .byte last ↔
          2 * i + 1 = program.length ∧ program[2 * i]? = some last) ∧
        (∃ there, loaded.moveTo line.address = .ok there ∧ there.fetch = line.item.fetched ∧
          (2 * i + 1 < program.length →
            (∀ op, there.fetch = .ok op ↔ line.item = .instruction op) ∧
            ∀ word : UInt16,
              there.fetch = .error (.illegalOpcode word.toNat) ↔ line.item = .word word)) ∧
        ∀ calls, (∀ call ∈ calls, call.isLoad = false) →
          (∀ op, .cycle (.ok (.executed op)) ∈ loaded.answers calls → ¬ op.Stores) →
          let m := loaded.after calls
          m.pc = line.address → ∀ call,
            (∀ op, (m.perform call).2 = .cycle (.ok (.executed op)) →
              line.item.fetched = .ok op) ∧
            ∀ fault, line.item.fetched = .error fault → call.looks m.isPaused →
              m.mode ≠ .halted → (m.perform call).2 = .cycle (.error fault)) ∧
    (programLimit < program.length →
      Listing.ofProgram program = .error (.programTooLarge program.length programLimit) ∧
      m₀.load program = .error (.programTooLarge program.length programLimit)) := by
  constructor
  · intro fits
    refine ⟨_, _, Listing.ofProgram_of_fits fits, load_eq_ok_iff.2 ⟨fits, rfl⟩, ?_, ?_⟩
    · rw [Listing.length_lines, Listing.length_items]
    intro i inside
    have listed : i < (Listing.items program).length := Listing.length_lines _ 0 ▸ inside
    rw [Listing.getElem_lines listed inside, Nat.zero_add]
    refine ⟨rfl, Listing.eq_byte_iff listed, ?_, ?_⟩
    · have lt : programStart + 2 * i < Register.count 16 := by
        have length := Listing.length_items program
        have limit : programLimit = 3584 := rfl
        change 512 + 2 * i < 65536
        omega
      let there := (m₀.loaded program).withPc ⟨_, lt⟩
      have memory : there.memory = .image program := rfl
      have fetch : there.fetch = (Listing.items program)[i].fetched :=
        Listing.fetch_of_line fits memory listed rfl
      refine ⟨there, moveTo_of_lt _ lt, fetch, fun proper => ?_⟩
      have whole (last : UInt8) : (Listing.items program)[i] ≠ .byte last := fun byte =>
        absurd ((Listing.eq_byte_iff listed last).1 byte).1 (Nat.ne_of_lt proper)
      rw [fetch]
      exact ⟨fun op => ListingItem.fetched_eq_ok_iff whole,
        fun word => ListingItem.fetched_eq_illegal_iff whole⟩
    · intro calls stays plain m pc call
      have unwritten : m.Unwritten program :=
        (m₀.unwritten_loaded fits).history stays plain
      exact ⟨fun op => unwritten.fetched_of_executed listed pc,
        fun fault illegal looks going => unwritten.failed_of_line listed pc illegal looks going⟩
  · exact fun large => ⟨if_neg (Nat.not_le.2 large), m₀.load_of_large large⟩

/-- A program that sets a register, comes to a word that encodes nothing and has a byte left
over. -/
def strayProgram : List UInt8 := [0x60, 0x07, 0x50, 0x01, 0x12]

theorem after_strayProgram (placed : m.Placed strayProgram 0) :
    m.answers [.step] = [.cycle (.ok (.executed (.set 0 7)))] ∧
      (m.after [.step]).Placed strayProgram 2 := by
  obtain ⟨next, step, placed, -⟩ := placed.step 2 placed.fetch rfl
    (by decide) rfl (congrArg (· + 2) placed.pc) (by decide)
  simp only [answers, after_cons, after_nil, perform, step]
  exact ⟨rfl, placed⟩

/-- The machine sets the register, as the first line shows, and fails over the word that the
second line shows. -/
theorem listing_runs_strayProgram :
    let loaded := (fresh (.ofSeed 0)).loaded strayProgram
    let m := loaded.after [.step]
    Listing.ofProgram strayProgram = .ok [⟨0x200, .instruction (.set 0 7)⟩,
      ⟨0x202, .word 0x5001⟩, ⟨0x204, .byte 0x12⟩] ∧
    loaded.answers [.step] = [.cycle (.ok (.executed (.set 0 7)))] ∧ m.pc = 0x202 ∧
    (m.perform .step).2 = .cycle (.error (.illegalOpcode 0x5001)) := by
  intro loaded m
  have start : loaded.Placed strayProgram 0 := placed_loaded _ (by decide) (by decide)
  obtain ⟨answers, placed⟩ := after_strayProgram start
  have plain (op : Instruction) (executed : .cycle (.ok (.executed op)) ∈ loaded.answers [.step]) :
      ¬ op.Stores := by
    rw [answers] at executed
    cases List.mem_singleton.1 executed
    rintro (⟨x, ⟨⟩⟩ | ⟨x, ⟨⟩⟩)
  obtain ⟨lines, _, listed, load, -, tells⟩ :=
    (listing_runs (fresh (.ofSeed 0)) strayProgram).1 (by decide)
  obtain ⟨-, rfl⟩ := load_eq_ok_iff.1 load
  cases listed
  obtain ⟨-, -, -, runs⟩ := tells 1 (by decide)
  have fails := (runs [.step] (by simp [Call.isLoad]) plain placed.pc .step).2
  refine ⟨rfl, answers, placed.pc, fails (.illegalOpcode 0x5001) rfl ?_ ?_⟩
  · rw [isPaused, placed.mode]
    rfl
  · rw [placed.mode]
    decide

end Machine

end Chip8
