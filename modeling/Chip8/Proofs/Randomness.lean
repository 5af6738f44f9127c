import Chip8.Machine.Operation
import Chip8.Proofs.Calls

/-!
# One byte for each roll

Only an instruction that asks for a random byte takes one from the generator, also if it then
fails to find its register, and it takes exactly one (`Machine.Draws`). An instruction of a step
does not fail after it took a byte, so the answers to the calls show every roll. By induction over
all that is done to a machine, roll `k` gets byte `k` of the stream that the machine was made
with, whatever lies in between, and the generator stands after as many bytes as there were rolls
(`rolls_in_turn`).
-/

namespace Chip8
set_option autoImplicit false

namespace Random

/-- The generator after some draws. -/
def skip (r : Random) : Nat → Random
  | 0 => r
  | n + 1 => (r.skip n).next.2

/-- The bytes that a generator yields one at a time, counted from zero. -/
def byte (r : Random) (n : Nat) : UInt8 := (r.skip n).next.1

theorem skip_eq (r : Random) (n : Nat) : r.skip n = { r with drawn := r.drawn + n } := by
  induction n with
  | zero => rfl
  | succ n ih =>
    rw [skip, ih]
    rfl

/-- The stream of a seed. -/
theorem byte_ofSeed (seed : UInt64) (n : Nat) : (ofSeed seed).byte n = byteAt (seedKey seed) n := by
  rw [byte, skip_eq, ofSeed, Nat.zero_add]
  rfl

theorem next_skip (r : Random) (n : Nat) : r.next.2.skip n = r.skip (n + 1) := by
  rw [skip_eq, skip_eq, next, Nat.add_assoc, Nat.add_comm 1 n]

theorem next_byte (r : Random) (n : Nat) : r.next.2.byte n = r.byte (n + 1) := by
  rw [byte, next_skip, byte]

/-- The generator after taking the byte that an instruction asks for, if there is one that asks. -/
def serve (r : Random) : Option Instruction → Random
  | some (.random _ _) => r.next.2
  | _ => r

theorem serve_of_ne (r : Random) {executed : Option Instruction}
    (other : ∀ x mask, executed ≠ some (.random x mask)) : r.serve executed = r := by
  cases executed with
  | none => rfl
  | some i =>
    cases i with
    | random x mask => exact absurd rfl (other x mask)
    | system | clear | ret | jump | call | skip | set | increase | arithmetic | setIndex
    | jumpOffset | draw | readDelay | awaitKey | setDelay | setSound | increaseIndex | pointGlyph
    | storeDecimal | storeRegisters | loadRegisters => rfl

end Random

/-- The instruction that a step executed, if it did. -/
def executedIn : Except Fault Cycle → Option Instruction
  | .ok (.executed i) => some i
  | _ => none

/-- One execution of an instruction that asks for a random byte. -/
structure Roll where
  register : UInt8
  mask : UInt8
  /-- The byte that the generator had next. -/
  byte : UInt8
  /-- What the register was read as afterwards. -/
  left : Except Fault UInt8

namespace Machine

variable {m after : Machine}

/-- The instruction that an operation executes, be it in a step or out of turn. -/
def executes (m : Machine) : Operation → Option Instruction
  | .execute i => some i
  | .call call =>
    match (m.perform call).2 with
    | .cycle outcome => executedIn outcome
    | _ => none
  | _ => none

/-- The roll that an operation makes, if it makes one. -/
def roll (m : Machine) (operation : Operation) : Option Roll :=
  match m.executes operation with
  | some (.random x mask) =>
    some { register := x, mask, byte := m.random.next.1,
           left := (m.operate operation).registers.read x.toNat }
  | _ => none

theorem roll_of_executes {operation : Operation} {x mask : UInt8}
    (executed : m.executes operation = some (.random x mask)) :
    m.roll operation =
      some ⟨x, mask, m.random.next.1, (m.operate operation).registers.read x.toNat⟩ := by
  simp only [roll, executed]

/-- The rolls that some operations make, in order. -/
def rolls (m : Machine) : List Operation → List Roll
  | [] => []
  | operation :: rest => (m.roll operation).toList ++ (m.operate operation).rolls rest

/-- What becomes of the generator where at most the given instruction is executed, and of the
register that a random byte is meant for. -/
structure Draws (m after : Machine) (executed : Option Instruction) : Prop where
  random : after.random = m.random.serve executed
  left : ∀ x mask, executed = some (.random x mask) → x.toNat < 16 →
    after.registers.read x.toNat = .ok (m.random.next.1 &&& mask)

/-- Where no instruction asks for a random byte the generator stands. -/
theorem Draws.of_ne {executed : Option Instruction}
    (other : ∀ x mask, executed ≠ some (.random x mask)) (same : after.random = m.random) :
    m.Draws after executed :=
  ⟨same.trans (m.random.serve_of_ne other).symm, fun x mask rolled => absurd rolled (other x mask)⟩

theorem Draws.none (same : after.random = m.random) : m.Draws after none := .of_ne nofun same

/-- The generator and the V registers are all that matters before and afterwards. -/
theorem Draws.of_work {before last : Machine} {executed : Option Instruction}
    (draws : before.Draws after executed) (first : before.work = m.work)
    (rest : last.work = after.work) : m.Draws last executed := by
  have random : before.random = m.random := congrArg Work.random first
  have random' : last.random = after.random := congrArg Work.random rest
  have v : last.registers.v = after.registers.v := congrArg Work.v rest
  refine ⟨random'.trans (draws.random.trans (by rw [random])), fun x mask rolled known => ?_⟩
  rw [RegisterFile.read, v, ← random]
  exact draws.left x mask rolled known

theorem MovesOn.read (moves : m.MovesOn after) (x : Nat) :
    after.registers.read x = m.registers.read x := by
  obtain ⟨_, _, _, rfl⟩ := moves
  rfl

theorem MovesOn.random (moves : m.MovesOn after) : after.random = m.random := by
  obtain ⟨_, _, _, rfl⟩ := moves
  rfl

theorem Draws.movesOn {last : Machine} {executed : Option Instruction}
    (draws : m.Draws after executed) (moves : after.MovesOn last) : m.Draws last executed := by
  refine ⟨moves.random.trans draws.random, fun x mask rolled known => ?_⟩
  rw [moves.read]
  exact draws.left x mask rolled known

/-- A roll takes its byte before it looks for its register. -/
theorem execute_roll (m : Machine) {x : UInt8} (known : x.toNat < 16) (mask : UInt8) :
    m.execute (.random x mask) =
      ({ m with
          random := m.random.next.2
          registers :=
            { m.registers with v := m.registers.v.set x.toNat (m.random.next.1 &&& mask) } },
        .ok .next) := by
  show Machine.changeRegisters { m with random := m.random.next.2 } (m.registers.write _ _) = _
  rw [m.registers.write_of_lt known]
  rfl

/-- A roll for a register that does not exist takes its byte nonetheless. -/
theorem execute_roll_missed (m : Machine) {x : UInt8} (unknown : ¬ x.toNat < 16) (mask : UInt8) :
    m.execute (.random x mask) =
      ({ m with random := m.random.next.2 }, .error (.registerOutOfRange x.toNat)) := by
  show Machine.changeRegisters { m with random := m.random.next.2 } (m.registers.write _ _) = _
  rw [RegisterFile.write, dif_neg unknown]
  rfl

theorem execute_draws (m : Machine) (i : Instruction) : m.Draws (m.execute i).1 (some i) := by
  constructor
  · by_cases rolls : ∃ x mask, i = .random x mask
    · obtain ⟨x, mask, rfl⟩ := rolls
      obtain ⟨_, touches⟩ := m.execute_footprint (.random x mask)
      exact congrArg Machine.random touches
    · have other (x mask : UInt8) : i ≠ .random x mask := fun same => rolls ⟨x, mask, same⟩
      have stands : (m.execute i).1.random = m.random := (m.execute_spares i).random other
      rw [stands, m.random.serve_of_ne fun x mask rolled => other x mask (Option.some.inj rolled)]
  · rintro x mask ⟨⟩ known
    rw [m.execute_roll known]
    simp [RegisterFile.read, known]

/-- An instruction that was fetched lies in memory. -/
theorem pc_lt_of_fetch {i : Instruction} (fetch : m.fetch = .ok i) : m.pc + 1 < memorySize := by
  obtain ⟨word, read, -⟩ := bind_eq_ok_iff.1 fetch
  obtain ⟨high, -, read⟩ := bind_eq_ok_iff.1 read
  obtain ⟨low, read, -⟩ := bind_eq_ok_iff.1 read
  unfold Memory.read at read
  split at read
  · assumption
  · cases read

/-- A step that comes to a roll carries it out and arrives at the next instruction: it does not
fail once the byte is taken. -/
theorem instructionCycle_roll (running : m.mode = .running) (inside : m.InProgram) {x mask : UInt8}
    (fetch : m.fetch = .ok (.random x mask)) :
    (m.execute (.random x mask)).1.MovesOn m.instructionCycle.1 ∧
      m.instructionCycle.2 = .ok (.executed (.random x mask)) := by
  have known : x.toNat < 16 := isEncodable_of_fetch fetch
  have answer : (m.execute (.random x mask)).2 = .ok .next := by rw [m.execute_roll known]
  have same := m.execute_sameControl (.random x mask)
  have loaded : m.programSize ≠ none := by
    obtain ⟨size, loaded, -⟩ := inside
    exact Option.ne_none_iff_exists'.2 ⟨size, loaded⟩
  have lt : Progress.next.destination (m.execute (.random x mask)).1.pc < Register.count 16 := by
    have pc : (m.execute (.random x mask)).1.pc = m.pc := congrArg Register.value same.pc
    have := pc_lt_of_fetch fetch
    have : memorySize + 1 < Register.count 16 := by decide
    show (m.execute (.random x mask)).1.pc + 2 < _
    omega
  have moves : Progress.next ≠ .hold := nofun
  rw [instructionCycle_of_fetch fetch, answer]
  refine ⟨(conclude_movesOn _ _ _).1, ?_⟩
  dsimp only
  rw [conclude_of_lt (same.mode.trans running) (same.programSize ▸ loaded) moves lt]

/-- Every other instruction leaves the generator alone, whether the step goes on or fails. -/
theorem instructionCycle_quiet {i : Instruction} (fetch : m.fetch = .ok i)
    (other : ∀ x mask, i ≠ .random x mask) :
    m.instructionCycle.1.random = m.random ∧
      ∀ answer, m.instructionCycle.2 = .ok answer → answer = .executed i := by
  have stands : (m.execute i).1.random = m.random := (m.execute_spares i).random other
  rw [instructionCycle_of_fetch fetch]
  cases (m.execute i).2 with
  | error fault => exact ⟨stands, nofun⟩
  | ok progress =>
    obtain ⟨moves, answers⟩ := (m.execute i).1.conclude_movesOn progress (.executed i)
    exact ⟨moves.random.trans stands, answers⟩

theorem instructionCycle_draws (running : m.mode = .running) (inside : m.InProgram) :
    m.Draws m.instructionCycle.1 (executedIn m.instructionCycle.2) := by
  cases fetch : m.fetch with
  | error fault =>
    simp only [instructionCycle, fetch]
    exact .none rfl
  | ok i =>
    by_cases rolls : ∃ x mask, i = .random x mask
    · obtain ⟨x, mask, rfl⟩ := rolls
      obtain ⟨moves, answer⟩ := instructionCycle_roll running inside fetch
      rw [answer]
      exact (m.execute_draws _).movesOn moves
    · have other (x mask : UInt8) : i ≠ .random x mask := fun same => rolls ⟨x, mask, same⟩
      obtain ⟨stands, answers⟩ := instructionCycle_quiet fetch other
      cases answer : m.instructionCycle.2 with
      | error fault => exact .none stands
      | ok cycle =>
        cases answers cycle answer
        exact .of_ne (fun x mask rolled => other x mask (Option.some.inj rolled)) stands

theorem runCycle_draws (running : m.mode = .running) :
    m.Draws m.runCycle.1 (executedIn m.runCycle.2) := by
  unfold runCycle
  split
  · exact .none rfl
  · exact .none rfl
  · rename_i inside
    exact instructionCycle_draws running (inProgram_eq_ok_true_iff.1 inside)

/-- To pick up a key takes no random byte. -/
theorem keyCycle_draws (m : Machine) : m.Draws m.keyCycle.1 (executedIn m.keyCycle.2) := by
  obtain ⟨_, _, moves, answers⟩ := m.keyCycle_movesOn
  refine .of_ne (fun x mask executed => ?_) moves.random
  cases answer : m.keyCycle.2 with
  | error fault =>
    rw [answer] at executed
    cases executed
  | ok cycle =>
    rw [answer] at executed
    rcases answers cycle answer with rfl | ⟨_, _, rfl⟩ <;> cases executed

/-- A step takes a byte exactly if it reports a roll. -/
theorem step_draws (m : Machine) : m.Draws m.step.1 (executedIn m.step.2) := by
  unfold step
  cases mode : m.mode with
  | idle | halted | paused => exact .none rfl
  | awaitingKey =>
    dsimp only
    rw [guard_snd]
    exact m.keyCycle_draws.movesOn (guard_movesOn _)
  | running =>
    dsimp only
    rw [guard_snd]
    exact (runCycle_draws mode).movesOn (guard_movesOn _)

/-- A change that may be refused leaves the generator alone if it does when it is made. -/
theorem attempt_random {change : Except Fault Machine}
    (same : ∀ after, change = .ok after → after.random = m.random) :
    (m.attempt change).1.random = m.random :=
  attempt_of (P := fun after => after.random = m.random) rfl same

theorem perform_draws (m : Machine) (call : Call) :
    m.Draws (m.perform call).1 (m.executes (.call call)) := by
  by_cases steps : ∃ outcome, (m.perform call).2 = .cycle outcome
  · obtain ⟨outcome, answer⟩ := steps
    obtain ⟨before, same, -, rfl, after⟩ := m.exists_before answer
    have executed : m.executes (.call call) = executedIn before.step.2 := by
      simp only [executes, answer]
    rw [executed]
    refine before.step_draws.of_work same ?_
    rcases after with after | after
    · rw [after]
    · rw [after, pause_work]
  · have silent : m.executes (.call call) = Option.none := by
      simp only [executes]
      split
      · rename_i outcome answer
        exact absurd ⟨outcome, answer⟩ steps
      · rfl
    rw [silent]
    apply Draws.none
    by_cases loads : ∃ program, call = .load program
    · obtain ⟨program, rfl⟩ := loads
      refine attempt_random fun after load => ?_
      obtain ⟨-, rfl⟩ := load_eq_ok_iff.1 load
      rfl
    · have other (program : List UInt8) : call ≠ .load program := fun same => loads ⟨program, same⟩
      have still (outcome : Except Fault Cycle) : (m.perform call).2 ≠ .cycle outcome :=
        fun answer => steps ⟨outcome, answer⟩
      exact congrArg Work.random (perform_work other still)

/-- Whatever is done to a machine takes a byte exactly if it is seen to make a roll. -/
theorem operate_draws (m : Machine) (operation : Operation) :
    m.Draws (m.operate operation) (m.executes operation) := by
  cases operation with
  | call call => exact m.perform_draws call
  | execute i => exact m.execute_draws i
  | setRegister | setIndex | setPc =>
    apply Draws.none
    exact changeRegisters_of (P := fun after => after.random = m.random) rfl fun _ _ => rfl
  | setFlag | setDelay | setSound | decay | setPoint | clear | paint | key => exact .none rfl
  | write | push | pop =>
    refine .none (attempt_random fun after done => ?_)
    obtain ⟨_, -, rfl⟩ := map_eq_ok_iff.1 done
    rfl
  | loadImage program =>
    refine .none (attempt_random fun after done => ?_)
    obtain ⟨memory, -, done⟩ := bind_eq_ok_iff.1 done
    cases done
    rfl

/-- A roll gets this byte, and leaves what its mask keeps of it in its register, if there is
such a register. -/
def Gets (roll : Roll) (byte : UInt8) : Prop :=
  roll.byte = byte ∧ (roll.register.toNat < 16 → roll.left = .ok (byte &&& roll.mask))

/-- An operation that makes a roll takes one byte, which the roll gets; any other takes none. -/
theorem operate_roll (m : Machine) (operation : Operation) :
    (m.operate operation).random = m.random.skip (m.roll operation).toList.length ∧
      ∀ roll ∈ m.roll operation, Gets roll m.random.next.1 := by
  obtain ⟨random, left⟩ := m.operate_draws operation
  unfold roll
  split
  · rename_i x mask executed
    rw [executed] at random
    refine ⟨random, fun roll same => ?_⟩
    cases same
    exact ⟨rfl, left x mask executed⟩
  · rename_i other
    exact ⟨random.trans (m.random.serve_of_ne other), nofun⟩

/-- Each roll of a run gets the byte of its number, and the generator stands after as many bytes
as there were rolls. -/
theorem operated_rolls (m : Machine) (operations : List Operation) :
    (m.operated operations).random = m.random.skip (m.rolls operations).length ∧
      ∀ k roll, (m.rolls operations)[k]? = some roll → Gets roll (m.random.byte k) := by
  induction operations generalizing m with
  | nil => exact ⟨rfl, nofun⟩
  | cons operation rest ih =>
    obtain ⟨stands, later⟩ := ih (m.operate operation)
    obtain ⟨taken, gets⟩ := m.operate_roll operation
    rw [operated_cons, rolls, stands]
    cases made : m.roll operation with
    | none =>
      rw [made] at taken
      rw [taken] at later ⊢
      exact ⟨rfl, later⟩
    | some first =>
      rw [made] at taken gets
      have taken : (m.operate operation).random = m.random.next.2 := taken
      rw [taken] at later ⊢
      refine ⟨m.random.next_skip _, fun k roll found => ?_⟩
      cases k with
      | zero =>
        cases found
        exact gets _ rfl
      | succ k =>
        rw [← m.random.next_byte]
        exact later k roll found

/-- The rolls of a machine take the bytes of its seed in turn. Whatever was done to the machine
since it was made, by calls of all kinds and by instructions executed out of turn, roll `k` of all
rolls took byte `k` of the stream of the seed's key, also if it failed to find its register; if it
found it, that byte and its mask are left there. The generator stands after as many bytes as there
were rolls, so nothing else takes a byte and nothing puts the stream back. -/
theorem rolls_in_turn (seed : UInt64) (operations : List Operation) :
    let m := new seed
    let stream := Random.byteAt (Random.seedKey seed)
    (m.operated operations).random =
        { key := Random.seedKey seed, drawn := (m.rolls operations).length } ∧
      ∀ k roll, (m.rolls operations)[k]? = some roll → roll.byte = stream k ∧
        (roll.register.toNat < 16 → roll.left = .ok (stream k &&& roll.mask)) := by
  intro m stream
  obtain ⟨stands, gets⟩ := m.operated_rolls operations
  refine ⟨?_, fun k roll found => ?_⟩
  · rw [stands, Random.skip_eq]
    exact congrArg _ (Nat.zero_add _)
  · have got : Gets roll ((Random.ofSeed seed).byte k) := gets k roll found
    rwa [Random.byte_ofSeed] at got

/-- A roll for a register that does not exist, and one in a step of a program. -/
def someRolls : List Operation :=
  [.execute (.random 20 0xFF), .call (.load [0xC3, 0x0F]), .call .step]

theorem roll_missed (m : Machine) : ∃ roll, m.roll (.execute (.random 20 0xFF)) = some roll ∧
    roll.left = .error (.registerOutOfRange 20) := by
  refine ⟨_, rfl, ?_⟩
  rw [operate, m.execute_roll_missed (by decide), RegisterFile.read, dif_neg (by decide)]
  rfl

theorem roll_loaded (m : Machine) : ∃ roll, (m.loaded [0xC3, 0x0F]).roll (.call .step) = some roll ∧
    roll.register = 3 ∧ roll.mask = 0x0F := by
  have known : (3 : UInt8).toNat < 16 := by decide
  have moves : Progress.next ≠ .hold := nofun
  have fetch : (m.loaded [0xC3, 0x0F]).fetch = .ok (.random 3 0x0F) := fetch_loaded m _
  obtain ⟨pc, -, step⟩ := step_of_executed (m.sound_loaded (by decide)) rfl
    (m.inProgram_loaded (List.cons_ne_nil 0xC3 [0x0F])) fetch
    ((m.loaded [0xC3, 0x0F]).execute_roll known 0x0F) moves
  have executed : (m.loaded [0xC3, 0x0F]).executes (.call .step) = some (.random 3 0x0F) := by
    simp only [executes, perform, step, executedIn]
  exact ⟨_, roll_of_executes executed, rfl, rfl⟩

theorem rolls_someRolls (m : Machine) : ∃ missed found, m.rolls someRolls = [missed, found] ∧
    missed.left = .error (.registerOutOfRange 20) ∧ found.register = 3 ∧ found.mask = 0x0F := by
  have late : (m.operate (.execute (.random 20 0xFF))) = { m with random := m.random.next.2 } := by
    rw [operate, m.execute_roll_missed (by decide)]
  have load (m : Machine) : m.perform (.load [0xC3, 0x0F]) = _ := perform_load m (by decide)
  have nothing (m : Machine) : m.roll (.call (.load [0xC3, 0x0F])) = none := by
    simp only [roll, executes, load]
  obtain ⟨missed, misses, left⟩ := m.roll_missed
  obtain ⟨found, finds, meant⟩ := roll_loaded { m with random := m.random.next.2 }
  refine ⟨missed, found, ?_, left, meant⟩
  rw [someRolls, rolls, misses, late, rolls, nothing, operate, load, rolls, finds]
  rfl

/-- The register that does not exist costs the first byte of the stream. -/
theorem rolls_in_turn_someRolls :
    ∃ missed found, (new 0).rolls someRolls = [missed, found] ∧
      missed.left = .error (.registerOutOfRange 20) ∧ found.register.toNat < 16 ∧
      found.left = .ok (Random.byteAt (Random.seedKey 0) 1 &&& 0x0F) ∧
      ((new 0).operated someRolls).random = { key := Random.seedKey 0, drawn := 2 } := by
  obtain ⟨missed, found, rolled, left, register, mask⟩ := rolls_someRolls (new 0)
  obtain ⟨stands, got⟩ := rolls_in_turn 0 someRolls
  rw [rolled] at stands got
  have known : found.register.toNat < 16 := by
    rw [register]
    decide
  have kept := (got 1 found rfl).2 known
  rw [mask] at kept
  exact ⟨missed, found, rolled, left, known, kept, stands⟩

end Machine

end Chip8
