import Mathlib.Data.Finset.Max
import Mathlib.Order.Fin.Basic
import Chip8.Proofs.Standing

/-!
A wait for a key, from its first attempt to its last. What an attempt finds depends on the keys of this look and,
where a release is waited for, of the look before it (`Machine.awaited?_look`). Looks that other instructions
took before the wait began do not count, for the first attempt only begins it (`KeyWait.ending`). So after any
number of attempts that found nothing the emulator is as it was but for the mark of the wait and the looks
(`Emulator.attempts_of_none`), and the first attempt that finds keys ends the wait with the lowest of them
(`Emulator.Reachable.wait_for_key`).
-/
namespace Chip8
variable {τ : Type}

namespace KeyWait

/-- The lowest of some keys. -/
def lowest? (keys : Finset Key) : Option Key := if any : keys.Nonempty then some (keys.min' any) else none

/-- The keys that end a wait at the attempt of the given number, if the keys held at each attempt are known. -/
def ending (release : Bool) (held : Nat → Finset Key) : Nat → Finset Key
  | 0 => if release then ∅ else held 0
  | i + 1 => if release then held i \ held (i + 1) else held (i + 1)

@[simp] theorem lowest?_empty : lowest? ∅ = none := dif_neg Finset.not_nonempty_empty
theorem lowest?_of_nonempty {keys : Finset Key} (any : keys.Nonempty) : lowest? keys = some (keys.min' any) :=
  dif_pos any

/-- In a sorted list the first element found is the least of all that could have been. -/
theorem find?_le {keys : List Key} (sorted : keys.Pairwise (· < ·)) {test : Key → Bool} {key : Key}
    (found : keys.find? test = some key) : ∀ other ∈ keys, test other = true → key ≤ other := by
  induction keys with
  | nil => cases found
  | cons first keys ih =>
    rw [List.pairwise_cons] at sorted
    rw [List.find?_cons] at found
    intro other among passes
    cases tested : test first with
    | true =>
      rw [tested] at found
      cases found
      rcases List.mem_cons.1 among with rfl | later
      · exact Fin.le_refl _
      · exact Fin.le_of_lt (sorted.1 other later)
    | false =>
      rw [tested] at found
      rcases List.mem_cons.1 among with rfl | later
      · rw [tested] at passes
        cases passes
      · exact ih sorted.2 found other later passes

/-- The search through all sixteen keys finds the least of those that pass. -/
theorem find?_finRange_eq_some_iff {test : Key → Bool} {key : Key} :
    (List.finRange 16).find? test = some key ↔ IsLeast {key | test key = true} key := by
  have least {key : Key} (found : (List.finRange 16).find? test = some key) : IsLeast {key | test key = true} key :=
    ⟨List.find?_some found, fun other passes =>
      find?_le (List.pairwise_lt_finRange 16) found other (List.mem_finRange other) passes⟩
  constructor
  · exact least
  · intro first
    cases found : (List.finRange 16).find? test with
    | none => exact absurd first.1 (List.find?_eq_none.1 found key (List.mem_finRange key))
    | some other => rw [(least found).unique first]

theorem find?_finRange_eq_none_iff {test : Key → Bool} :
    (List.finRange 16).find? test = none ↔ ∀ key, test key = false := by
  simp only [List.find?_eq_none, List.mem_finRange, forall_const, Bool.not_eq_true]

theorem find?_finRange {test : Key → Bool} {keys : Finset Key} (same : ∀ key, test key = true ↔ key ∈ keys) :
    (List.finRange 16).find? test = lowest? keys := by
  by_cases any : keys.Nonempty
  · have least : IsLeast {key | test key = true} (keys.min' any) := by
      rw [Set.ext same]
      exact keys.isLeast_min' any
    rw [lowest?_of_nonempty any]
    exact find?_finRange_eq_some_iff.2 least
  · rw [Finset.not_nonempty_iff_eq_empty.1 any, lowest?_empty]
    refine find?_finRange_eq_none_iff.2 fun key => Bool.eq_false_iff.2 fun passes => any ⟨key, (same key).1 passes⟩

end KeyWait

namespace Machine
open KeyWait

/-- The keys held at the next look. -/
def heldKeys (m : Machine τ) : Finset Key := (Layout.keys m.keyboard.held).toFinset

/-- What a look finds is the lowest key held or, during a wait for a release, the lowest key seen before that is
    no longer held. -/
theorem awaited?_look {m : Machine τ} {before : Finset Key}
    (seen : ∀ key, m.keypad.isPressed key = true ↔ key ∈ before) :
    m.look.awaited? =
      lowest? (if m.dialect.keyRelease then if m.waiting then before \ m.heldKeys else ∅ else m.heldKeys) := by
  have held (key : Key) : m.look.keypad.isPressed key = true ↔ key ∈ m.heldKeys := by
    rw [heldKeys, List.mem_toFinset]
    exact Keypad.isPressed_poll _ _ key
  have pressed : m.look.keypad.firstPressed? = lowest? m.heldKeys := find?_finRange held
  have released : m.look.keypad.firstReleased? = lowest? (before \ m.heldKeys) := by
    refine find?_finRange fun key => ?_
    rw [Bool.and_eq_true, Bool.not_eq_true', Finset.mem_sdiff, ← held, Bool.not_eq_true]
    exact and_congr_left fun _ => seen key
  simp only [awaited?, dialect_look, waiting_look, pressed, released]
  cases m.dialect.keyRelease <;> cases m.waiting <;> simp

end Machine

/-- Every set of keys can be held. -/
theorem Layout.exists_names (held : Finset Key) : ∃ names, (Layout.keys names).toFinset = held := by
  refine ⟨((List.finRange 16).filter fun key : Key => key ∈ held).map fun key : Key => Layout.names.get key, ?_⟩
  ext key
  rw [List.mem_toFinset, Layout.keys, List.mem_filterMap]
  constructor
  · rintro ⟨name, among, found⟩
    obtain ⟨other, chosen, rfl⟩ := List.mem_map.1 among
    rw [lookup_eq_some_iff.2 rfl] at found
    cases found
    simpa using chosen
  · intro inside
    exact ⟨_, List.mem_map_of_mem (by simpa using inside), lookup_eq_some_iff.2 rfl⟩

namespace Emulator
open KeyWait

/-- The emulator after so many cycles. -/
def stepped (e : Emulator τ) : Nat → Emulator τ
  | 0 => e
  | n + 1 => (e.stepped n).step.state

/-- The keys held at each attempt of a wait. -/
def heldAt (names : Nat → List String) (i : Nat) : Finset Key := (Layout.keys (names i)).toFinset

/-- What an emulator is after attempts at a wait that found nothing: but for the mark of the wait, the looks at the
    keypad and the count of cycles it is the one in which the wait began. -/
structure Waited (e : Emulator τ) (names : Nat → List String) (n : Nat) (after : Emulator τ) : Prop where
  state : after = { e with
    machine := { e.machine with waiting := decide (0 < n), keypad := after.machine.keypad, keyboard := ⟨names, n⟩ }
    cycles := e.cycles + n }
  seen : ∀ k, n = k + 1 → ∀ key, after.machine.keypad.isPressed key = true ↔ key ∈ heldAt names k

namespace Waited
variable {e after : Emulator τ} {names : Nat → List String} {n : Nat}

theorem awaited? (waited : e.Waited names n after) :
    after.machine.look.awaited? = lowest? (ending e.machine.dialect.keyRelease (heldAt names) n) := by
  have held : after.machine.heldKeys = heldAt names n := by rw [waited.state]; rfl
  have release : after.machine.dialect = e.machine.dialect := by rw [waited.state]
  have waiting : after.machine.waiting = decide (0 < n) := by rw [waited.state]
  cases n with
  | zero =>
    -- What was seen before the wait began does not matter.
    have seen (key : Key) : after.machine.keypad.isPressed key = true ↔
        key ∈ ((List.finRange 16).filter after.machine.keypad.isPressed).toFinset := by simp
    rw [Machine.awaited?_look seen, held, release, waiting]
    simp [ending]
  | succ k =>
    rw [Machine.awaited?_look (waited.seen k rfl), held, release, waiting]
    simp [ending]

theorem next (waited : e.Waited names n after) {x : Register}
    (word : e.machine.nextWord = Instruction.encode (.waitKey x))
    (room : e.machine.core.pc.addr + 2 ≤ e.machine.core.pc.limit) :
    after.step = .done { after with
      machine := (after.machine.ahead 2).waitKey x
      journal := note after.journal (after.machine.ahead 2) (.waitKey x) ((after.machine.ahead 2).waitKey x)
      cycles := after.cycles + 1 } (.waitKey x) := by
  have core : after.machine.core = e.machine.core := by rw [waited.state]
  exact step_of_waitKey (by rw [Machine.nextWord, core]; exact word) (by rw [core]; exact room)

/-- An attempt that finds nothing is one attempt more. -/
theorem succ (waited : e.Waited names n after) {x : Register}
    (word : e.machine.nextWord = Instruction.encode (.waitKey x))
    (room : e.machine.core.pc.addr + 2 ≤ e.machine.core.pc.limit) (inMemory : 0 ≤ e.machine.core.pc.addr)
    (nothing : ending e.machine.dialect.keyRelease (heldAt names) n = ∅) :
    e.Waited names (n + 1) after.step.state := by
  have none : after.machine.look.awaited? = none := by rw [waited.awaited?, nothing, lowest?_empty]
  have inside : 0 ≤ after.machine.core.pc.addr := by rw [waited.state]; exact inMemory
  have silent : note after.journal (after.machine.ahead 2) (.waitKey x) { after.machine.look with waiting := true } =
      after.journal := by simp [note, Machine.warning?, Machine.remark?]
  rw [waited.next word room, Machine.waitKey_ahead_of_none x inside none, silent, Attempt.state_done]
  obtain ⟨state, _⟩ := waited
  have begun : decide (0 < n + 1) = true := decide_eq_true (Nat.succ_pos n)
  generalize after.machine.keypad = keypad at state
  subst state
  refine ⟨by simp only [begun, Machine.look, Keyboard.look, Nat.add_assoc], fun k count key => ?_⟩
  cases count
  rw [heldAt, List.mem_toFinset]
  exact Keypad.isPressed_poll _ _ key

/-- The first attempt that finds keys moves on, with the lowest of them in the register. -/
theorem done (waited : e.Waited names n after) {x : Register}
    (word : e.machine.nextWord = Instruction.encode (.waitKey x))
    (room : e.machine.core.pc.addr + 2 ≤ e.machine.core.pc.limit)
    (found : (ending e.machine.dialect.keyRelease (heldAt names) n).Nonempty) :
    ∃ keypad journal, after.step.state = { e with
      machine := { e.machine.ahead 2 with
        waiting := false
        registers := e.machine.registers.set x
          (BitVec.ofNat 8 ((ending e.machine.dialect.keyRelease (heldAt names) n).min' found))
        keypad
        keyboard := ⟨names, n + 1⟩ }
      journal
      cycles := e.cycles + (n + 1) } := by
  have key := waited.awaited?.trans (lowest?_of_nonempty found)
  rw [waited.next word room, Machine.waitKey_ahead_of_some x key, Attempt.state_done]
  obtain ⟨state, _⟩ := waited
  generalize after.machine.keypad = keypad at state
  subst state
  simp only [Machine.look, Machine.ahead, Keyboard.look, Nat.add_assoc]
  exact ⟨_, _, rfl⟩

end Waited

theorem waited_stepped {e : Emulator τ} {names : Nat → List String} {n : Nat} {x : Register}
    (fresh : e.machine.waiting = false) (word : e.machine.nextWord = Instruction.encode (.waitKey x))
    (room : e.machine.core.pc.addr + 2 ≤ e.machine.core.pc.limit) (inMemory : 0 ≤ e.machine.core.pc.addr)
    (nothing : ∀ i < n, ending e.machine.dialect.keyRelease (heldAt names) i = ∅) :
    e.Waited names n (({ e with machine := { e.machine with keyboard := ⟨names, 0⟩ } } : Emulator τ).stepped n) := by
  induction n with
  | zero =>
    have unmarked : decide (0 < 0) = e.machine.waiting := fresh.symm
    exact ⟨by rw [unmarked]; rfl, nofun⟩
  | succ n ih =>
    have before := ih fun i earlier => nothing i (Nat.lt_succ_of_lt earlier)
    exact before.succ word room inMemory (nothing n (Nat.lt_succ_self n))

variable [Time τ]

/-- A wait that begins in a state that a program leads to, while any keys are held at its attempts. As long as no
    attempt has found a key that ends it, it is at the same place and only the mark of the wait, the looks at the
    keypad and the count of cycles have changed; the next attempt is the same wait. The first attempt that finds
    keys that end it goes on behind it, with the lowest of them in the register. -/
theorem Reachable.wait_for_key {s : Setup τ} {e : Emulator τ} (reached : e.Reachable s) {x : Register}
    (fresh : e.machine.waiting = false) (word : e.machine.nextWord = Instruction.encode (.waitKey x))
    (room : e.machine.core.pc.addr + 2 ≤ e.machine.core.pc.limit) (names : Nat → List String) (n : Nat)
    (nothing : ∀ i < n, ending e.machine.dialect.keyRelease (heldAt names) i = ∅) :
    let waits := (e.act (.hold ⟨names, 0⟩)).state.stepped
    (∃ keypad, waits n = { e with
      machine := { e.machine with waiting := decide (0 < n), keypad, keyboard := ⟨names, n⟩ }
      cycles := e.cycles + n }) ∧
    (waits n).step.result = .ok (.waitKey x) ∧
    ∀ found : (ending e.machine.dialect.keyRelease (heldAt names) n).Nonempty,
      ∃ keypad journal, waits (n + 1) = { e with
        machine := { e.machine.ahead 2 with
          waiting := false
          registers := e.machine.registers.set x
            (BitVec.ofNat 8 ((ending e.machine.dialect.keyRelease (heldAt names) n).min' found))
          keypad
          keyboard := ⟨names, n + 1⟩ }
        journal
        cycles := e.cycles + (n + 1) } := by
  intro waits
  have waited : e.Waited names n (waits n) := waited_stepped fresh word room reached.standing.addr_nonneg nothing
  exact ⟨⟨_, waited.state⟩, by rw [waited.next word room, Attempt.result_done], waited.done word room⟩

theorem wait_for_key_third : ∃ e : Emulator Rat, ofProgram (.plain #[0xF0, 0x0A]) = .ok e ∧
    let after := (e.act (.hold ⟨fun i => if i < 2 then [] else ["3", "1"], 0⟩)).state.stepped 3
    after.machine.registers.get 0 = 1 ∧ after.machine.core.pc.addr = 0x202 ∧ after.cycles = e.cycles + 3 := by
  obtain ⟨e, starts, started, word, counter⟩ := exists_plain_wait
  have fresh : e.machine.waiting = false := by rw [started.machine]; rfl
  have release : e.machine.dialect.keyRelease = false := by rw [started.machine]; rfl
  let names (i : Nat) : List String := if i < 2 then [] else ["3", "1"]
  have nothing : ∀ i < 2, ending e.machine.dialect.keyRelease (heldAt names) i = ∅ := by rw [release]; decide
  have keys : ending e.machine.dialect.keyRelease (heldAt names) 2 = {1, 3} := by rw [release]; decide
  have found : (ending e.machine.dialect.keyRelease (heldAt names) 2).Nonempty := by rw [keys]; decide
  have least : (ending e.machine.dialect.keyRelease (heldAt names) 2).min' found = 1 := by simp only [keys]; rfl
  obtain ⟨_, _, completes⟩ :=
    (Reachable.of_ofProgram starts).wait_for_key fresh word (by rw [counter]; decide) names 2 nothing
  obtain ⟨keypad, journal, state⟩ := completes found
  refine ⟨e, starts, ?_⟩
  intro after
  have ended : after = _ := state
  rw [ended, least]
  exact ⟨Registers.get_set_self _ 0 _, by rw [Machine.core_ahead, counter]; rfl, rfl⟩

end Emulator
end Chip8
