import Chip8.Proofs.KeyWait
import Chip8.Proofs.Numbers
import Chip8.Proofs.Skips

/-!
Looks at the pad, one after the other. A look replaces what was seen and keeps what was seen before it, so a pad shows
the last two looks of its history: the keys down are those that the names held last stand for (`Keypad.keys_looks`), and
the keys seen before are those that were down without the last look (`Keypad.previous_looks`). As no two keys share a
name (`Layout.alike_iff_down`), a pad tells which of the layout's names were held at these two looks, and nothing more
of the history (`Keypad.pad_of_history`).
-/
namespace Chip8

namespace Layout

/-- The number of the key that a name stands for. -/
def number? (name : String) : Option Int := (List.lookup name standard).map fun key => (key.val : Int)

theorem down_iff_mem {held : List String} {key : Key} : Down held key ↔ names.get key ∈ held := by
  rw [← mem_keys_iff_down, keys, List.mem_filterMap]
  simp only [lookup_eq_some_iff, exists_eq_right']

/-- As no two keys share a name, the same keys are down exactly if the same of the names are held. -/
theorem alike_iff_down {held held' : List String} :
    Alike held held' ↔ ∀ key : Key, Down held key ↔ Down held' key := by
  constructor
  · intro alike key
    exact down_congr alike key
  · intro same name named
    obtain ⟨key, rfl⟩ := List.mem_iff_get.1 named
    exact down_iff_mem.symm.trans ((same key).trans down_iff_mem)

end Layout

namespace Keypad

/-! ### What a pad tells -/

section
variable {k : Keypad} {key : Key}

theorem get_keys_eq_isPressed : k.keys.get key = k.isPressed key := rfl

theorem firstPressed?_eq_some_iff : k.firstPressed? = some key ↔ IsLeast {key : Key | k.keys.get key = true} key :=
  KeyWait.find?_finRange_eq_some_iff

theorem firstPressed?_eq_none_iff : k.firstPressed? = none ↔ ∀ key : Key, k.keys.get key = false :=
  KeyWait.find?_finRange_eq_none_iff

theorem released_iff :
    (k.previous.get key && !k.keys.get key) = true ↔ k.previous.get key = true ∧ k.keys.get key = false := by
  rw [Bool.and_eq_true, Bool.not_eq_true']

theorem firstReleased?_eq_some_iff : k.firstReleased? = some key ↔
    IsLeast {key : Key | k.previous.get key = true ∧ k.keys.get key = false} key := by
  simp only [← released_iff]
  exact KeyWait.find?_finRange_eq_some_iff

theorem firstReleased?_eq_none_iff : k.firstReleased? = none ↔
    ∀ key : Key, ¬ (k.previous.get key = true ∧ k.keys.get key = false) := by
  simp only [← released_iff, Bool.not_eq_true]
  exact KeyWait.find?_finRange_eq_none_iff

end

theorem ext_get {v w : Vector Bool 16} (same : ∀ key : Key, v.get key = true ↔ w.get key = true) : v = w := by
  apply Vector.ext
  intro i inside
  exact Bool.eq_iff_iff.2 (same ⟨i, inside⟩)

theorem eq_iff_keys {k l : Keypad} : k = l ↔
    (∀ key : Key, k.keys.get key = true ↔ l.keys.get key = true) ∧
    ∀ key : Key, k.previous.get key = true ↔ l.previous.get key = true := by
  constructor
  · rintro rfl
    exact ⟨fun _ => Iff.rfl, fun _ => Iff.rfl⟩
  · rintro ⟨keys, previous⟩
    cases k
    cases l
    rw [mk.injEq]
    exact ⟨ext_get keys, ext_get previous⟩

/-! ### Histories of looks -/

/-- The pad after looks, at each of which the given names were held. -/
def looks (k : Keypad) (history : List (List String)) : Keypad :=
  history.foldl (fun k held => k.poll (Layout.keys held)) k

theorem looks_concat (k : Keypad) (history : List (List String)) (held : List String) :
    k.looks (history ++ [held]) = (k.looks history).poll (Layout.keys held) := List.foldl_append

/-- The keys down are those that the names held at the last look stand for. -/
theorem keys_looks (history : List (List String)) (key : Key) :
    (initial.looks history).keys.get key = true ↔ Layout.Down (history.getLastD []) key := by
  rcases List.eq_nil_or_concat history with rfl | ⟨history, held, rfl⟩
  · simp [looks, initial, Vector.get, Layout.Down]
  · rw [List.concat_eq_append, looks_concat, List.getLastD_concat, get_keys_eq_isPressed, isPressed_poll,
      Layout.mem_keys_iff_down]

/-- What was seen before is what there was to see without the last look. -/
theorem previous_looks (history : List (List String)) :
    (initial.looks history).previous = (initial.looks history.dropLast).keys := by
  rcases List.eq_nil_or_concat history with rfl | ⟨history, held, rfl⟩
  · rfl
  · rw [List.concat_eq_append, looks_concat, List.dropLast_concat, previous_poll]

/-- A history of looks and the pad after it. A look through the layout always goes through and is one more of the
    history. A key is down exactly if one of the names held at the last look stands for it; before the first look none
    is. What was seen before is what the pad showed one look earlier. The first key pressed is the least that is down,
    and the first released the least that was down one look earlier and is up now, if there is one. Two histories leave
    the same pad exactly if at the last look and at the one before it they held the same of the names that the layout
    knows, in whatever order, how often, and among whatever others. -/
theorem pad_of_history (history : List (List String)) :
    let pad : Keypad := initial.looks history
    let before : Keypad := initial.looks history.dropLast
    let held := history.getLastD []
    let heldBefore := history.dropLast.getLastD []
    (∀ names, pad.pollNumbers Layout.number? names = (initial.looks (history ++ [names]), none)) ∧
    (∀ key : Key, pad.keys.get key = true ↔ Layout.Down held key) ∧
    pad.previous = before.keys ∧
    (∀ key : Key, before.keys.get key = true ↔ Layout.Down heldBefore key) ∧
    (∀ key, pad.firstPressed? = some key ↔ IsLeast {key : Key | pad.keys.get key = true} key) ∧
    (pad.firstPressed? = none ↔ ∀ key : Key, pad.keys.get key = false) ∧
    (∀ key, pad.firstReleased? = some key ↔
      IsLeast {key : Key | before.keys.get key = true ∧ pad.keys.get key = false} key) ∧
    (pad.firstReleased? = none ↔ ∀ key : Key, ¬ (before.keys.get key = true ∧ pad.keys.get key = false)) ∧
    ∀ other, initial.looks other = pad ↔
      Layout.Alike (other.getLastD []) held ∧ Layout.Alike (other.dropLast.getLastD []) heldBefore := by
  intro pad before held heldBefore
  have earlier : pad.previous = before.keys := previous_looks history
  refine ⟨?_, keys_looks history, earlier, keys_looks _, fun key => firstPressed?_eq_some_iff,
    firstPressed?_eq_none_iff, ?_, ?_, ?_⟩
  · intro names
    rw [looks_concat]
    exact pad.pollNumbers_standard names
  · intro key
    rw [← earlier]
    exact firstReleased?_eq_some_iff
  · rw [← earlier]
    exact firstReleased?_eq_none_iff
  · intro other
    rw [eq_iff_keys, Layout.alike_iff_down, Layout.alike_iff_down, earlier, previous_looks]
    simp only [keys_looks, pad, before, held, heldBefore]

/-- Two histories that end alike. The key of W, 5, is the least that is down, and that of X, 0, has gone up. -/
theorem pad_of_history_alike :
    let pad := initial.looks [["X", "W"], ["4", "P", "W", "4"]]
    initial.looks [["V"], ["W", "P", "X", "W"], ["W", "4"]] = pad ∧
      pad.firstPressed? = some 5 ∧ pad.firstReleased? = some 0 := by
  intro pad
  obtain ⟨-, -, -, -, pressed, -, released, -, same⟩ := pad_of_history [["X", "W"], ["4", "P", "W", "4"]]
  refine ⟨(same _).2 ⟨?_, ?_⟩, (pressed 5).2 ⟨by decide, ?_⟩, (released 0).2 ⟨by decide, ?_⟩⟩
  · show ∀ name ∈ Layout.names, _
    decide
  · show ∀ name ∈ Layout.names, _
    decide
  · show ∀ key : Key, pad.keys.get key = true → 5 ≤ key
    decide
  · intro key _
    exact Fin.zero_le key

end Keypad

end Chip8
