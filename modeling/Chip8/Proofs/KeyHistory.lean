import Mathlib.Data.List.DropRight
import Chip8.Keypad.History

/-!
# A keypad as its history tells it

What a keypad holds can be read off the operations that it went through and the keys that it handed
out. A key is held if the last of its presses and releases is a press. An outstanding wait is the
one armed last, unless it was cancelled or its key was handed out since, and it has taken the first
key pressed after it was armed (`waitTold`). One more operation leaves a keypad as it is told
(`Tells.perform`), and so does every history (`keypad_as_told`).
-/

namespace Chip8
set_option autoImplicit false

namespace KeyEvent

/-- The key that an operation presses, if it is one to press a key that exists. -/
def pressed? : KeyEvent → Option UInt8
  | press key => if key.toNat < 16 then some key else none
  | _ => none

/-- Whether an operation is a press or a release of a key. -/
def moves (key : UInt8) : KeyEvent → Bool
  | press other | release other => other == key
  | _ => false

/-- The last press or release of a key. -/
def lastMove (key : UInt8) (events : List KeyEvent) : Option KeyEvent :=
  (events.filter (·.moves key)).getLast?

/-- The key that was pressed last. -/
def lastPressed (events : List KeyEvent) : Option UInt8 := (events.filterMap pressed?).getLast?

variable (key : UInt8) (events : List KeyEvent) (event : KeyEvent)

theorem lastMove_concat : lastMove key (events ++ [event]) =
    if event.moves key then some event else lastMove key events := by
  unfold lastMove
  rw [List.filter_append]
  cases moves : event.moves key <;> simp [moves]

theorem lastPressed_concat :
    lastPressed (events ++ [event]) = event.pressed?.or (lastPressed events) := by
  unfold lastPressed
  rw [List.filterMap_append]
  cases pressed : event.pressed? <;> simp [pressed]

end KeyEvent

/-- An operation on a keypad, with the register and the key that it handed out. -/
structure KeyEntry where
  event : KeyEvent
  handed : Option (UInt8 × UInt8)

/-- Whether nothing is left of an older wait: a new one was armed, or the old one was cancelled, or
its key was handed out. -/
def KeyEntry.settles (entry : KeyEntry) : Bool :=
  match entry.event with
  | .arm _ | .cancel => true
  | .take => entry.handed.isSome
  | .press _ | .release _ => false

/-- The entry that settled the wait last. -/
def lastSettling (entries : List KeyEntry) : Option KeyEntry :=
  (entries.rdropWhile fun entry => !entry.settles).getLast?

/-- The first key pressed since then. -/
def firstSince (entries : List KeyEntry) : Option UInt8 :=
  (entries.rtakeWhile fun entry => !entry.settles).findSome? fun entry => entry.event.pressed?

/-- How far a wait has come that was armed for a register, with the first key pressed since. -/
def KeyWait.armed (register : UInt8) : Option UInt8 → KeyWait
  | none => .waiting register
  | some key => .resolved register key

/-- The wait that a history leads to. -/
def waitTold (entries : List KeyEntry) : KeyWait :=
  match lastSettling entries with
  | some ⟨.arm register, _⟩ => .armed register (firstSince entries)
  | _ => .idle

section

variable {entries : List KeyEntry} {entry : KeyEntry}

theorem lastSettling_concat : lastSettling (entries ++ [entry]) =
    if entry.settles then some entry else lastSettling entries := by
  unfold lastSettling
  rw [List.rdropWhile_concat]
  cases entry.settles <;> simp

theorem firstSince_concat : firstSince (entries ++ [entry]) =
    if entry.settles then none else (firstSince entries).or entry.event.pressed? := by
  unfold firstSince
  rw [List.rtakeWhile_concat]
  cases entry.settles <;> simp

theorem KeyWait.armed_press (register key : UInt8) (first : Option UInt8) :
    (armed register first).press key = armed register (first.or (some key)) := by
  cases first <;> rfl

/-- Until the wait is settled anew, the first key that is pressed counts. -/
theorem waitTold_concat (unsettled : entry.settles = false) : waitTold (entries ++ [entry]) =
    match entry.event.pressed? with
    | some key => (waitTold entries).press key
    | none => waitTold entries := by
  simp only [waitTold, lastSettling_concat, firstSince_concat, unsettled, Bool.false_eq_true,
    if_false]
  cases pressed : entry.event.pressed? with
  | none => simp only [Option.or_none]
  | some key =>
    dsimp only
    split
    · exact (KeyWait.armed_press _ _ _).symm
    · rfl

theorem waitTold_concat_of_settles (settles : entry.settles = true) :
    waitTold (entries ++ [entry]) =
      match entry.event with
      | .arm register => .waiting register
      | _ => .idle := by
  obtain ⟨event, handed⟩ := entry
  simp only [waitTold, lastSettling_concat, firstSince_concat, settles, if_true]
  cases event <;> rfl

end

namespace Keypad

/-- The register and the key that an operation hands out. -/
def hands (k : Keypad) : KeyEvent → Option (UInt8 × UInt8)
  | .take => k.take.1
  | _ => none

/-- The operations of a history, each with what it handed out. -/
def entries (k : Keypad) : List KeyEvent → List KeyEntry
  | [] => []
  | event :: rest => ⟨event, k.hands event⟩ :: (k.perform event).entries rest

theorem entries_concat (k : Keypad) (events : List KeyEvent) (event : KeyEvent) :
    k.entries (events ++ [event]) =
      k.entries events ++ [⟨event, (k.after events).hands event⟩] := by
  induction events generalizing k with
  | nil => rfl
  | cons first rest ih => exact congrArg (_ :: ·) (ih (k.perform first))

section

variable {k : Keypad} {key : UInt8}

theorem perform_press (known : key.toNat < 16) : k.perform (.press key) =
    { held := k.held.set key.toNat true, last := some key, wait := k.wait.press key } := by
  simp only [perform, press, known, dite_true]
  rfl

theorem perform_release (known : key.toNat < 16) : k.perform (.release key) =
    { k with held := k.held.set key.toNat false } := by
  simp only [perform, release, known, dite_true]
  rfl

/-- A key above F is refused. -/
theorem press_release_error (unknown : 16 ≤ key.toNat) :
    k.press key = .error (.invalidKey key.toNat) ∧
      k.release key = .error (.invalidKey key.toNat) := by
  have none : ¬ key.toNat < 16 := by omega
  simp only [press, release, none, dite_false, and_self]

theorem perform_of_error (unknown : 16 ≤ key.toNat) :
    k.perform (.press key) = k ∧ k.perform (.release key) = k := by
  obtain ⟨press, release⟩ := press_release_error (k := k) unknown
  simp only [perform, press, release]
  exact ⟨rfl, rfl⟩

/-- A key that is set is the only one to change. -/
theorem isHeld_set (known : key.toNat < 16) (on : Bool) (last : Option UInt8) (wait : KeyWait)
    (other : UInt8) :
    isHeld { held := k.held.set key.toNat on, last, wait } other =
      if key = other then .ok on else k.isHeld other := by
  unfold isHeld
  by_cases same : key = other
  · subst same
    simp [known]
  · have apart : key.toNat ≠ other.toNat := by
      intro h
      exact same (UInt8.toNat_inj.1 h)
    by_cases known' : other.toNat < 16 <;> simp [known', same, Vector.getElem_set_ne, apart]

end

theorem ne_of_unknown {key other : UInt8} (known : key.toNat < 16) (unknown : ¬ other.toNat < 16) :
    other ≠ key := by
  rintro rfl
  exact unknown known

variable (k : Keypad) (event : KeyEvent)

/-- What an operation makes of a key: held if it presses the key, not held if it lets it go. -/
theorem isHeld_perform {key : UInt8} (known : key.toNat < 16) : (k.perform event).isHeld key =
    if event.moves key then .ok (decide (event = .press key)) else k.isHeld key := by
  cases event with
  | arm | cancel => rfl
  | take =>
    simp only [perform, take]
    split <;> rfl
  | press other =>
    by_cases known' : other.toNat < 16
    · rw [perform_press known', isHeld_set known']
      simp only [KeyEvent.moves, beq_iff_eq]
      split
      · rename_i same
        simp [same]
      · rfl
    · rw [(perform_of_error (by omega)).1]
      simp [KeyEvent.moves, ne_of_unknown known known']
  | release other =>
    by_cases known' : other.toNat < 16
    · rw [perform_release known', isHeld_set known']
      simp [KeyEvent.moves]
    · rw [(perform_of_error (by omega)).2]
      simp [KeyEvent.moves, ne_of_unknown known known']

theorem last_perform : (k.perform event).last = event.pressed?.or k.last := by
  cases event with
  | arm | cancel => rfl
  | take =>
    simp only [perform, take]
    split <;> rfl
  | press key =>
    by_cases known : key.toNat < 16
    · simp [perform_press known, KeyEvent.pressed?, known]
    · rw [(perform_of_error (by omega)).1]
      simp [KeyEvent.pressed?, known]
  | release key =>
    by_cases known : key.toNat < 16
    · rw [perform_release known]
      rfl
    · rw [(perform_of_error (by omega)).2]
      rfl

theorem wait_perform {entries : List KeyEntry} (told : k.wait = waitTold entries) :
    (k.perform event).wait = waitTold (entries ++ [⟨event, k.hands event⟩]) := by
  cases event with
  | arm | cancel => rw [waitTold_concat_of_settles rfl, perform]; rfl
  | take =>
    simp only [perform, hands, take]
    cases wait : k.wait with
    | resolved register key => rw [waitTold_concat_of_settles rfl]; rfl
    | idle | waiting =>
      rw [waitTold_concat rfl, ← told]
      rfl
  | press key =>
    rw [waitTold_concat rfl, ← told]
    by_cases known : key.toNat < 16
    · simp [perform_press known, KeyEvent.pressed?, known]
    · simp [(perform_of_error (k := k) (Nat.le_of_not_lt known)).1, KeyEvent.pressed?, known]
  | release key =>
    rw [waitTold_concat rfl, ← told]
    by_cases known : key.toNat < 16
    · rw [perform_release known]
      rfl
    · rw [(perform_of_error (by omega)).2]
      rfl

/-- A keypad is as the operations of its history and what they handed out tell. -/
structure Told (events : List KeyEvent) (entries : List KeyEntry) (k : Keypad) : Prop where
  held : ∀ key : UInt8, key.toNat < 16 →
    k.isHeld key = .ok (decide (KeyEvent.lastMove key events = some (.press key)))
  last : k.last = KeyEvent.lastPressed events
  wait : k.wait = waitTold entries

theorem told_untouched : Told [] [] untouched where
  held key known := by
    rw [isHeld_eq_ok_iff]
    simp [untouched, known, KeyEvent.lastMove]
  last := rfl
  wait := rfl

variable {k} {events : List KeyEvent} {entries : List KeyEntry}

theorem Told.perform (told : Told events entries k) (event : KeyEvent) :
    Told (events ++ [event]) (entries ++ [⟨event, k.hands event⟩]) (k.perform event) where
  held key known := by
    rw [isHeld_perform k event known, KeyEvent.lastMove_concat, told.held key known]
    split
    · simp
    · rfl
  last := by rw [last_perform, KeyEvent.lastPressed_concat, told.last]
  wait := wait_perform k event told.wait

theorem told_after (events : List KeyEvent) :
    Told events (untouched.entries events) (untouched.after events) := by
  induction events using List.reverseRecOn with
  | nil => exact told_untouched
  | append_singleton events event ih =>
    rw [entries_concat, after_append]
    exact ih.perform event

/-- After any history of a new keypad, whatever keys and registers are named in it: a key is held
if it was pressed and not let go since, the key pressed last is the last that exists, and the wait
is the one that the history tells. A key above F is refused and changes nothing, and a key is handed
out exactly if it has arrived. -/
theorem keypad_as_told (events : List KeyEvent) :
    let k := untouched.after events
    (∀ key : UInt8, key.toNat < 16 →
      k.isHeld key = .ok (decide (KeyEvent.lastMove key events = some (.press key)))) ∧
    k.last = KeyEvent.lastPressed events ∧
    k.wait = waitTold (untouched.entries events) ∧
    (∀ key : UInt8, 16 ≤ key.toNat →
      (k.press key = .error (.invalidKey key.toNat) ∧
        k.release key = .error (.invalidKey key.toNat)) ∧
      k.perform (.press key) = k ∧ k.perform (.release key) = k) ∧
    ∀ register key, k.take.1 = some (register, key) ↔ k.wait = .resolved register key := by
  intro k
  have told := told_after events
  refine ⟨told.held, told.last, told.wait, ?_, ?_⟩
  · intro key unknown
    exact ⟨press_release_error unknown, perform_of_error unknown⟩
  · intro register key
    exact take_fst_eq_some_iff

/-- A key is picked up, and later a wait is armed anew over a key that nobody picked up. The next
press is of a key that does not exist. -/
def rearmed : List KeyEvent :=
  [.press 1, .arm 3, .press 0xE, .take, .arm 4, .press 5, .arm 7, .press 16, .press 2, .release 1]

theorem keypad_as_told_rearmed :
    let k := untouched.after rearmed
    (1 : UInt8).toNat < 16 ∧ k.isHeld 1 = .ok false ∧ k.isHeld 2 = .ok true ∧
      k.last = some 2 ∧ k.wait = .resolved 7 2 ∧ k.take.1 = some (7, 2) ∧
      16 ≤ (16 : UInt8).toNat ∧ k.press 16 = .error (.invalidKey 16) := by
  intro k
  have known : (1 : UInt8).toNat < 16 ∧ (2 : UInt8).toNat < 16 := by decide
  have unknown : 16 ≤ (16 : UInt8).toNat := by decide
  obtain ⟨held, last, wait, refused, takes⟩ := keypad_as_told rearmed
  have resolved : k.wait = .resolved 7 2 := wait.trans (by decide)
  refine ⟨known.1, ?_, ?_, ?_, resolved, (takes 7 2).2 resolved, unknown, (refused 16 unknown).1.1⟩
  · rw [held 1 known.1]
    decide
  · rw [held 2 known.2]
    decide
  · rw [last]
    decide

end Keypad

end Chip8
