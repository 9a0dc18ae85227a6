import Chip8.Proofs.KeyWait

/-!
Programs that run straight on, from their first word to their end. Fetching again and again reads the words of the
program in order, and fails once no whole word is left (`Core.Reads.fetched`). Most instructions neither move the
counter nor write to memory (`Machine.execute_of_isStraight`), so a program made of these takes one cycle for each
of its words and then finishes (`Emulator.ends_after_last_word`).
-/
namespace Chip8
variable {τ : Type}

/-! ### The words in order -/

namespace Core

/-- The core after so many fetches. -/
def fetched (c : Core) : Nat → Core
  | 0 => c
  | n + 1 => (c.fetched n).fetch.state

/-- The program lies in memory, and the counter is at its word of that number. -/
structure Reads (program : Array Byte) (n : Nat) (c : Core) : Prop where
  addr : c.pc.addr = 0x200 + 2 * n
  limit : c.pc.limit = 0x200 + program.size
  word {i : Nat} (inside : i + 1 < program.size) :
    c.memory.word (0x200 + i) = Word.ofBytes program[i] program[i + 1]

theorem exists_load (c : Core) {program : Array Byte} (fits : program.size ≤ room) :
    ∃ core, c.load program = .ok core ∧ core.Reads program 0 := by
  refine ⟨_, if_neg (Nat.not_lt.2 fits), ?_⟩
  exact ⟨rfl, rfl, c.memory.word_overlay fits⟩

namespace Reads
variable {program : Array Byte} {n : Nat} {c : Core}

theorem advance (reads : c.Reads program n) : Reads program (n + 1) { c with pc := c.pc.advance } where
  addr := by
    show c.pc.addr + 2 = _
    rw [reads.addr]
    omega
  limit := reads.limit
  word := reads.word

/-- There is room for another word exactly if the program has one more. -/
theorem room_iff (reads : c.Reads program n) : c.pc.addr + 2 ≤ c.pc.limit ↔ n < program.size / 2 := by
  rw [reads.addr, reads.limit]
  omega

theorem nextWord (reads : c.Reads program n) (inside : 2 * n + 1 < program.size) :
    c.memory.word c.pc.addr = Word.ofBytes program[2 * n] program[2 * n + 1] := by
  rw [reads.addr]
  exact reads.word inside

theorem fetched (reads : c.Reads program 0) (n : Nat) : (c.fetched n).Reads program n := by
  induction n with
  | zero => exact reads
  | succ n ih =>
    rw [Core.fetched, state_fetch]
    exact ih.advance

theorem fetch_of_lt (reads : c.Reads program n) (inside : 2 * n + 1 < program.size) :
    c.fetch.result = .ok (Word.ofBytes program[2 * n] program[2 * n + 1]) := by
  rw [fetch_of_le (reads.room_iff.2 (by omega)), Attempt.result_done, reads.nextWord inside]

theorem fetch_of_ge (reads : c.Reads program n) (ended : program.size / 2 ≤ n) :
    c.fetch.result = .error (.finished (0x200 + 2 * n + 2)) := by
  rw [Core.fetch_of_lt (Int.not_le.1 (mt reads.room_iff.1 (Nat.not_lt.2 ended))), Attempt.result_stopped, reads.addr]

end Reads

end Core

/-! ### Straight instructions -/

/-- The instruction is not a jump, a call, a return, a skip, a wait or a store to memory. -/
def Instruction.isStraight : Instruction → Bool
  | ret | jump _ | call _ | skip _ | jumpFromV0 _ | waitKey _ | storeDecimal _ | storeRegisters _ => false
  | _ => true

theorem Machine.execute_of_isStraight (m : Machine τ) {i : Instruction} (straight : i.isStraight = true) :
    ∃ after, m.execute i = .done after () ∧ after.core.pc = m.core.pc ∧ after.core.memory = m.core.memory := by
  cases i with
  | ret | jump _ | call _ | skip _ | jumpFromV0 _ | waitKey _ | storeDecimal _ | storeRegisters _ => cases straight
  | loadRegisters x =>
    refine ⟨_, rfl, ?_⟩
    simp only [loadRegisters, indexAfter]
    split <;> exact ⟨rfl, rfl⟩
  | _ => exact ⟨_, rfl, rfl, rfl⟩

namespace Emulator
variable {program : Array Byte} {n : Nat} {e : Emulator τ}

/-- A cycle at a straight instruction runs through and goes on to the next word. -/
theorem step_of_isStraight (reads : e.machine.core.Reads program n) (inside : 2 * n + 1 < program.size)
    (straight : (Instruction.decode (Word.ofBytes program[2 * n] program[2 * n + 1])).isStraight = true) :
    e.step.result = .ok (.decode (Word.ofBytes program[2 * n] program[2 * n + 1])) ∧
      e.step.state.machine.core.Reads program (n + 1) ∧ e.step.state.cycles = e.cycles + 1 := by
  have word : e.machine.nextWord = Word.ofBytes program[2 * n] program[2 * n + 1] := reads.nextWord inside
  rw [← word] at straight ⊢
  obtain ⟨after, ran, pc, memory⟩ := (e.machine.ahead 2).execute_of_isStraight straight
  rw [step_of_done (reads.room_iff.2 (by omega)) ran, Attempt.result_done, Attempt.state_done]
  refine ⟨rfl, ?_, rfl⟩
  have next := reads.advance
  exact ⟨pc ▸ next.addr, pc ▸ next.limit, memory ▸ next.word⟩

/-- A cycle behind the last word fails and is not counted. -/
theorem step_of_ended (reads : e.machine.core.Reads program n) (ended : program.size / 2 ≤ n) :
    e.step = .stopped (e.withMachine (e.machine.ahead 2)) (.finished (0x200 + 2 * n + 2)) := by
  rw [step_of_lt (Int.not_le.1 (mt reads.room_iff.1 (Nat.not_lt.2 ended))), reads.addr]

/-! ### Straight programs -/

/-- Every whole word of the program reads as a straight instruction. -/
def Straight (program : Array Byte) : Prop :=
  ∀ n (inside : 2 * n + 1 < program.size),
    (Instruction.decode (Word.ofBytes program[2 * n] program[2 * n + 1])).isStraight = true

/-- Up to its end a straight program goes on by one word with every cycle. -/
theorem reads_stepped (straight : Straight program) (reads : e.machine.core.Reads program 0)
    (within : n ≤ program.size / 2) :
    (e.stepped n).machine.core.Reads program n ∧ (e.stepped n).cycles = e.cycles + n := by
  induction n with
  | zero => exact ⟨reads, rfl⟩
  | succ n ih =>
    obtain ⟨there, counted⟩ := ih (Nat.le_of_succ_le within)
    have inside : 2 * n + 1 < program.size := by omega
    obtain ⟨-, next, one⟩ := step_of_isStraight there inside (straight n inside)
    exact ⟨next, by rw [stepped, one, counted, Nat.add_assoc]⟩

theorem Started.reads {s : Setup τ} (started : Started s.loaded e) (fits : s.program.size ≤ Core.room) :
    e.machine.core.Reads s.program 0 where
  addr := by rw [started.machine]; rfl
  limit := by rw [started.machine]; rfl
  word := started.word fits

/-- A program ends exactly at its end. Its words, high byte first, are fetched one after the other, as many as there
    are whole words, and the next fetch finds the program finished. If they all read as straight instructions, then
    with any dialect, keys, clock and random numbers that many cycles run through, each executing its word, and the
    next one finds the program finished and is not counted. -/
theorem ends_after_last_word [Time τ] {program : Array Byte} (fits : program.size ≤ Core.room) :
    (∀ c : Core, ∃ core, c.load program = .ok core ∧
      (∀ n (inside : 2 * n + 1 < program.size),
        (core.fetched n).fetch.result = .ok (Word.ofBytes program[2 * n] program[2 * n + 1])) ∧
      (core.fetched (program.size / 2)).fetch.result =
        .error (.finished (0x200 + 2 * (program.size / 2 : Nat) + 2))) ∧
    (Straight program → ∀ (s : Setup τ) (start : Emulator τ) (keyboard : Keyboard),
      s.program = program → ofProgram s = .ok start →
      let e := (start.act (.hold keyboard)).state
      (∀ n (inside : 2 * n + 1 < program.size),
        (e.stepped n).step.result = .ok (.decode (Word.ofBytes program[2 * n] program[2 * n + 1]))) ∧
      (e.stepped (program.size / 2)).cycles = program.size / 2 ∧
      (e.stepped (program.size / 2)).step.result =
        .error (.finished (0x200 + 2 * (program.size / 2 : Nat) + 2)) ∧
      (e.stepped (program.size / 2 + 1)).cycles = program.size / 2) := by
  refine ⟨fun c => ?fetches, fun straight s start keyboard same starts => ?cycles⟩
  case fetches =>
    obtain ⟨core, loaded, reads⟩ := c.exists_load fits
    exact ⟨core, loaded, fun n inside => (reads.fetched n).fetch_of_lt inside,
      (reads.fetched (program.size / 2)).fetch_of_ge (Nat.le_refl _)⟩
  case cycles =>
    subst same
    intro e
    have reads : e.machine.core.Reads s.program 0 := (started_of_ofProgram starts).reads fits
    have fresh : e.cycles = 0 := (pace_of_ofProgram starts).2
    obtain ⟨there, counted⟩ := reads_stepped straight reads (Nat.le_refl _)
    rw [fresh, Nat.zero_add] at counted
    have last := step_of_ended there (Nat.le_refl _)
    refine ⟨fun n inside => ?_, counted, by rw [last]; rfl, by rw [stepped, last]; exact counted⟩
    exact (step_of_isStraight (reads_stepped straight reads (by omega)).1 inside (straight n inside)).1

/-- V0 is set to 5 and 1 is added; the last byte is no whole word. -/
theorem ends_after_last_word_odd :
    let program : Array Byte := #[0x60, 0x05, 0x70, 0x01, 0x70]
    let keyboard := Keyboard.holding ["1"]
    program.size ≤ Core.room ∧ Straight program ∧ ∃ start : Emulator Rat, ofProgram (.plain program) = .ok start ∧
      let e := (start.act (.hold keyboard)).state
      (e.stepped 0).step.result = .ok (.setByte 0 5) ∧ (e.stepped 1).step.result = .ok (.addByte 0 1) ∧
      (e.stepped 2).step.result = .error (.finished 518) ∧ (e.stepped 3).cycles = 2 := by
  intro program keyboard
  have fits : program.size ≤ Core.room := by decide
  have five : program.size = 5 := rfl
  have first : Instruction.decode (Word.ofBytes 0x60 0x05) = .setByte 0 5 := by decide
  have second : Instruction.decode (Word.ofBytes 0x70 0x01) = .addByte 0 1 := by decide
  have straight : Straight program := by
    intro n inside
    have two : n = 0 ∨ n = 1 := by omega
    rcases two with rfl | rfl
    · exact congrArg Instruction.isStraight first
    · exact congrArg Instruction.isStraight second
  obtain ⟨start, starts, -⟩ := exists_plain program fits
  obtain ⟨words, -, last, counted⟩ := (ends_after_last_word fits).2 straight (.plain program) start keyboard rfl starts
  have half : program.size / 2 = 2 := by omega
  rw [half] at last counted
  exact ⟨fits, straight, start, starts, (words 0 (by decide)).trans (congrArg _ first),
    (words 1 (by decide)).trans (congrArg _ second), last, counted⟩

end Emulator

end Chip8
