import Pyrometer.ByteMemory

/-!
# Texts stored at running offsets

A writer stores one text after another through a pointer and keeps a running
count of the bytes. After each text it moves the pointer by the whole count and
not by the length of that text, so the pointer runs ahead of the count. A
nonempty text may be followed by some slack, such as a string terminator, that
is stored but not counted.

The stored texts form their concatenation, whatever the memory held before,
exactly when at most two of them are nonempty and these two are neighbors.
-/

namespace Pyrometer.RunningOffsets

open ByteMemory

/-- Where the next text is stored, and how many bytes were counted. -/
structure Cursor where
  position : Nat
  counted : Nat

/-- The cursor of an empty output. -/
def Cursor.start : Cursor := ⟨0, 0⟩

/-- A text is counted, then the position moves by the whole count. -/
def Cursor.advance (cursor : Cursor) (text : List Byte) : Cursor :=
  ⟨cursor.position + (cursor.counted + text.length), cursor.counted + text.length⟩

/-- The bytes stored for a text: an empty one stores nothing, not even its slack. -/
def withSlack (slack text : List Byte) : List Byte := if text = [] then [] else text ++ slack

/-- Memory after one text. -/
def storeText (slack : List Byte) (cursor : Cursor) (text : List Byte) (memory : Mem) : Mem :=
  overlay memory (ofList (withSlack slack text)) cursor.position (withSlack slack text).length

/-- Memory after a list of texts. -/
def place (slack : List Byte) : Cursor → List (List Byte) → Mem → Mem
  | _, [], memory => memory
  | cursor, text :: rest, memory =>
      place slack (cursor.advance text) rest (storeText slack cursor text memory)

/-- The cursor after a list of texts. -/
def Cursor.after : Cursor → List (List Byte) → Cursor
  | cursor, [] => cursor
  | cursor, text :: rest => (cursor.advance text).after rest

/-- The end of the furthest byte stored for a list of texts. -/
def reach (slack : List Byte) : Cursor → List (List Byte) → Nat
  | _, [] => 0
  | cursor, text :: rest =>
      max (if text = [] then 0 else cursor.position + (withSlack slack text).length)
        (reach slack (cursor.advance text) rest)

/-- A text that stores something. -/
def visible (text : List Byte) : Bool := !text.isEmpty

/-- At most two flags are set, and these are neighbors. -/
def Paired : List Bool → Prop
  | [] => True
  | false :: rest => Paired rest
  | true :: rest => ∀ later ∈ rest.tail, later = false

/-- Whether flags are paired can be computed. -/
instance decidablePaired : (flags : List Bool) → Decidable (Paired flags)
  | [] => isTrue trivial
  | false :: rest => decidablePaired rest
  | true :: rest => inferInstanceAs (Decidable (∀ later ∈ rest.tail, later = false))

/-- The stored texts read as their concatenation, whatever was there before. -/
def Concatenates (slack : List Byte) (texts : List (List Byte)) : Prop :=
  ∀ memory, toList (place slack .start texts memory) 0 texts.flatten.length = texts.flatten

/-- No text begins with the byte that starts the slack. -/
def Distinct (slack : List Byte) (texts : List (List Byte)) : Prop :=
  ∀ text ∈ texts, ∀ byte, text.head? = some byte → slack.head? ≠ some byte

/-- A nonempty text is visible. -/
theorem visible_true {text : List Byte} (nonempty : text ≠ []) : visible text = true := by
  simpa [visible] using nonempty

/-- No flag is set exactly when every text is empty. -/
theorem all_hidden (texts : List (List Byte)) :
    (∀ flag ∈ texts.map visible, flag = false) ↔ ∀ text ∈ texts, text = [] := by
  simp [visible]

/-- The count is the length of the concatenation. -/
theorem after_counted (cursor : Cursor) (texts : List (List Byte)) :
    (cursor.after texts).counted = cursor.counted + texts.flatten.length := by
  induction texts generalizing cursor with
  | nil => rfl
  | cons text rest inductionHypothesis =>
    rw [Cursor.after, inductionHypothesis, List.flatten_cons, List.length_append,
      Cursor.advance, Nat.add_assoc]

/-- Nothing below the position changes, since positions only grow. -/
theorem place_below (slack : List Byte) (cursor : Cursor) (texts : List (List Byte)) (memory : Mem)
    (address : Nat) (below : address < cursor.position) :
    place slack cursor texts memory address = memory address := by
  induction texts generalizing cursor memory with
  | nil => rfl
  | cons text rest inductionHypothesis =>
    have further : address < (cursor.advance text).position :=
      Nat.lt_of_lt_of_le below (Nat.le_add_right _ _)
    rw [place, inductionHypothesis _ _ further, storeText,
      overlay_outside _ _ _ _ _ (Or.inl below)]

/-- An empty text stores nothing. -/
@[simp] theorem store_text_empty (slack : List Byte) (cursor : Cursor) (memory : Mem) :
    storeText slack cursor [] memory = memory := by
  funext address
  exact overlay_outside _ _ _ _ _ (by simp [withSlack]; omega)

/-- Empty texts store nothing. -/
theorem place_empties (slack : List Byte) (cursor : Cursor) (texts : List (List Byte))
    (memory : Mem) (empties : ∀ text ∈ texts, text = []) :
    place slack cursor texts memory = memory := by
  induction texts generalizing cursor memory with
  | nil => rfl
  | cons text rest inductionHypothesis =>
    obtain rfl : text = [] := empties text (by simp)
    rw [place, store_text_empty]
    exact inductionHypothesis _ _ (fun later member => empties later (by simp [member]))

/-- Empty texts reach nothing. -/
theorem reach_empties (slack : List Byte) (cursor : Cursor) (texts : List (List Byte))
    (empties : ∀ text ∈ texts, text = []) : reach slack cursor texts = 0 := by
  induction texts generalizing cursor with
  | nil => rfl
  | cons text rest inductionHypothesis =>
    obtain rfl : text = [] := empties text (by simp)
    rw [reach, inductionHypothesis _ (fun later member => empties later (by simp [member]))]
    rfl

/-- Empty texts concatenate to nothing. -/
theorem flatten_empties (texts : List (List Byte)) (empties : ∀ text ∈ texts, text = []) :
    texts.flatten = [] := by
  simpa using empties

/-- Bytes stored for a text are read back at its position. -/
theorem store_text_inside (slack : List Byte) (cursor : Cursor) (text : List Byte) (memory : Mem)
    (offset : Nat) (inside : offset < text.length) :
    storeText slack cursor text memory (cursor.position + offset) = text[offset] := by
  have nonempty : text ≠ [] := by
    rintro rfl
    simp at inside
  have bound : offset < (withSlack slack text).length := by
    simp [withSlack, nonempty]
    omega
  rw [storeText, overlay_inside _ _ _ _ _ (by omega) (by omega), Nat.add_sub_cancel_left, ofList]
  simp [withSlack, nonempty, List.getElem?_append_left inside, inside]

/-- Directly behind a nonempty text stands its slack or, without slack, what was
there before. -/
theorem store_text_behind (slack : List Byte) (cursor : Cursor) (text : List Byte) (memory : Mem)
    (nonempty : text ≠ []) :
    storeText slack cursor text memory (cursor.position + text.length) =
      slack.headD (memory (cursor.position + text.length)) := by
  cases slack with
  | nil =>
    refine overlay_outside _ _ _ _ _ (Or.inr ?_)
    simp [withSlack, nonempty]
  | cons byte rest =>
    have bound : text.length < (withSlack (byte :: rest) text).length := by
      simp [withSlack, nonempty]
    rw [storeText, overlay_inside _ _ _ _ _ (by omega) (by omega), Nat.add_sub_cancel_left, ofList]
    simp [withSlack, nonempty]

/-- An empty text at the start moves nothing. -/
theorem advance_start_empty : Cursor.start.advance [] = Cursor.start := rfl

/-- A leading empty text does not matter for the contents. -/
theorem place_start_empty (slack : List Byte) (texts : List (List Byte)) (memory : Mem) :
    place slack .start ([] :: texts) memory = place slack .start texts memory := by
  rw [place, store_text_empty, advance_start_empty]

/-- The memory after two texts of which the first is not empty. -/
def pairMemory (slack first second : List Byte) (memory : Mem) : Mem :=
  storeText slack ⟨first.length, first.length⟩ second (storeText slack .start first memory)

/-- After two texts the position is ahead of the count by the first one's length. -/
theorem place_pair (slack first second : List Byte) (rest : List (List Byte)) (memory : Mem) :
    place slack .start (first :: second :: rest) memory =
      place slack ⟨first.length + (first.length + second.length), first.length + second.length⟩
        rest (pairMemory slack first second memory) := by
  simp [place, Cursor.advance, Cursor.start, pairMemory]

/-- Two neighboring texts are stored one behind the other. -/
theorem pair_memory_reads (slack first second : List Byte) (memory : Mem) :
    toList (pairMemory slack first second memory) 0 (first ++ second).length = first ++ second := by
  apply List.ext_getElem (by simp)
  intro index bound same
  have inside : index < first.length + second.length := by simpa using same
  simp only [toList, List.getElem_map, List.getElem_range, Nat.zero_add]
  by_cases early : index < first.length
  · rw [List.getElem_append_left early, pairMemory]
    have stays := place_below slack ⟨first.length, first.length⟩ [second]
      (storeText slack .start first memory) index early
    rw [place, place] at stays
    rw [stays]
    simpa [Cursor.start] using store_text_inside slack .start first memory index early
  · rw [List.getElem_append_right (by omega), pairMemory]
    have stored := store_text_inside slack ⟨first.length, first.length⟩ second
      (storeText slack .start first memory) (index - first.length) (by omega)
    rwa [show first.length + (index - first.length) = index by omega] at stored

/-- Directly behind two neighboring texts stands the slack or, without slack, what
was there before. -/
theorem pair_memory_behind (slack first second : List Byte) (memory : Mem) (nonempty : first ≠ []) :
    pairMemory slack first second memory (first.length + second.length) =
      slack.headD (memory (first.length + second.length)) := by
  by_cases empty : second = []
  · subst empty
    rw [pairMemory, store_text_empty]
    simpa [Cursor.start] using store_text_behind slack .start first memory nonempty
  · rw [pairMemory, store_text_behind _ _ _ _ empty]
    cases slack with
    | nil =>
      refine overlay_outside _ _ _ _ _ (Or.inr ?_)
      simp [withSlack, nonempty, Cursor.start]
    | cons byte rest => rfl

/-- Two neighboring texts followed by empty ones read as their concatenation. -/
theorem pair_concatenates (slack first second : List Byte) (rest : List (List Byte))
    (empties : ∀ later ∈ rest, later = []) : Concatenates slack (first :: second :: rest) := by
  intro memory
  have whole : (first :: second :: rest).flatten = first ++ second := by
    simp [flatten_empties rest empties]
  rw [whole, place_pair, place_empties _ _ _ _ empties]
  exact pair_memory_reads slack first second memory

/-- The first byte of a concatenation starts one of its texts. -/
theorem flatten_head (texts : List (List Byte)) (byte : Byte) (tail : List Byte)
    (front : texts.flatten = byte :: tail) : ∃ text ∈ texts, text.head? = some byte := by
  induction texts with
  | nil => simp at front
  | cons text rest inductionHypothesis =>
    cases text with
    | nil =>
      obtain ⟨found, member, starts⟩ := inductionHypothesis (by simpa using front)
      exact ⟨found, by simp [member], starts⟩
    | cons first others =>
      refine ⟨first :: others, by simp, ?_⟩
      simp only [List.flatten_cons, List.cons_append, List.cons.injEq] at front
      simp [front.1]

/-- A third text behind a nonempty one is stored too far: the byte where it should
begin is never written. -/
theorem third_text_misses (slack first second : List Byte) (rest : List (List Byte))
    (nonempty : first ≠ []) (distinct : Distinct slack rest) (later : List Byte)
    (member : later ∈ rest) (shown : later ≠ []) :
    ¬Concatenates slack (first :: second :: rest) := by
  intro concatenates
  have positive : 0 < first.length := List.length_pos_iff.mpr nonempty
  obtain ⟨byte, tail, front⟩ : ∃ byte tail, rest.flatten = byte :: tail := by
    refine List.exists_cons_of_ne_nil (fun nothing => shown ?_)
    exact List.flatten_eq_nil_iff.mp nothing later member
  obtain ⟨text, inRest, starts⟩ := flatten_head rest byte tail front
  have whole : (first :: second :: rest).flatten = (first ++ second) ++ byte :: tail := by
    simp [front]
  have read := congrArg (fun bytes => bytes[first.length + second.length]?)
    (concatenates (fun _ => byte + 1))
  rw [whole, place_pair] at read
  have kept := place_below slack
    ⟨first.length + (first.length + second.length), first.length + second.length⟩ rest
    (pairMemory slack first second (fun _ => byte + 1)) (first.length + second.length)
    (by simp only; omega)
  rw [pair_memory_behind slack first second _ nonempty] at kept
  have wrong : slack.headD (byte + 1) = byte := by
    rw [← kept]
    simpa [toList] using read
  cases slack with
  | nil => exact absurd wrong (by simp)
  | cons own more => exact distinct text inRest byte starts (congrArg some wrong)

/-- The stored texts concatenate exactly when they are paired. Induct on the texts:
leading empty ones do not matter, and behind the first nonempty one only its
neighbor is stored in place. -/
theorem concatenates_iff (slack : List Byte) (texts : List (List Byte))
    (distinct : Distinct slack texts) :
    Concatenates slack texts ↔ Paired (texts.map visible) := by
  induction texts with
  | nil => exact ⟨fun _ => trivial, fun _ memory => rfl⟩
  | cons first rest inductionHypothesis =>
    have later : Distinct slack rest := fun text member => distinct text (by simp [member])
    by_cases empty : first = []
    · subst empty
      have same : Concatenates slack ([] :: rest) ↔ Concatenates slack rest := by
        simp [Concatenates, place_start_empty]
      rw [same, inductionHypothesis later]
      rfl
    · rw [List.map_cons, visible_true empty, Paired]
      cases rest with
      | nil =>
        have padded := pair_concatenates slack first [] [] (by simp)
        refine ⟨fun _ => by simp, fun _ memory => ?_⟩
        have read := padded memory
        rw [place_pair, pairMemory, store_text_empty, place] at read
        simpa [place] using read
      | cons second others =>
        rw [List.map_cons, List.tail_cons, all_hidden]
        refine ⟨fun concatenates text member => ?_, pair_concatenates slack first second others⟩
        by_contra shown
        exact third_text_misses slack first second others empty
          (fun found inside => later found (by simp [inside])) text member shown concatenates

/-- Paired texts reach the end of their concatenation and its slack. -/
theorem reach_paired (slack : List Byte) (texts : List (List Byte))
    (paired : Paired (texts.map visible)) (shown : texts.flatten ≠ []) :
    reach slack .start texts = texts.flatten.length + slack.length := by
  induction texts with
  | nil => exact absurd rfl shown
  | cons first rest inductionHypothesis =>
    by_cases empty : first = []
    · subst empty
      rw [reach, advance_start_empty, inductionHypothesis paired (by simpa using shown)]
      simp
    · rw [List.map_cons, visible_true empty, Paired] at paired
      cases rest with
      | nil => simp [reach, empty, withSlack, Cursor.start]
      | cons second others =>
        have empties := (all_hidden others).mp paired
        have nothing : others.flatten = [] := flatten_empties others empties
        rw [reach, reach, reach_empties _ _ others empties]
        by_cases hidden : second = []
        · simp [hidden, empty, withSlack, Cursor.start, nothing]
        · simp only [hidden, empty, withSlack, Cursor.start, Cursor.advance, if_false,
            List.flatten_cons, nothing, List.length_append, List.append_nil]
          omega

/-- Paired texts of bounded length concatenate to at most twice that length. -/
theorem paired_length (texts : List (List Byte)) (paired : Paired (texts.map visible))
    (bound : Nat) (short : ∀ text ∈ texts, text.length ≤ bound) :
    texts.flatten.length ≤ 2 * bound := by
  induction texts with
  | nil => simp
  | cons first rest inductionHypothesis =>
    have later : ∀ text ∈ rest, text.length ≤ bound :=
      fun text member => short text (by simp [member])
    by_cases empty : first = []
    · subst empty
      simpa using inductionHypothesis paired later
    · rw [List.map_cons, visible_true empty, Paired] at paired
      have head := short first (by simp)
      cases rest with
      | nil =>
        simp only [List.flatten_cons, List.flatten_nil, List.append_nil]
        omega
      | cons second others =>
        have nothing : others.flatten = [] := flatten_empties others ((all_hidden others).mp paired)
        have next := later second (by simp)
        simp only [List.flatten_cons, nothing, List.append_nil, List.length_append]
        omega

/-- What is stored reaches at least the end of the counted bytes, as long as the
position is not behind the count. -/
theorem counted_le_reach (slack : List Byte) (cursor : Cursor) (texts : List (List Byte))
    (ahead : cursor.counted ≤ cursor.position) (shown : texts.flatten ≠ []) :
    cursor.counted + texts.flatten.length ≤ reach slack cursor texts := by
  induction texts generalizing cursor with
  | nil => exact absurd rfl shown
  | cons text rest inductionHypothesis =>
    have still : (cursor.advance text).counted ≤ (cursor.advance text).position := by
      simp only [Cursor.advance]
      omega
    by_cases none : rest.flatten = []
    · have nonempty : text ≠ [] := fun empty => shown (by simp [empty, none])
      have here : cursor.position + (withSlack slack text).length ≤
          reach slack cursor (text :: rest) := by
        rw [reach, if_neg nonempty]
        exact Nat.le_max_left _ _
      have length : text.length ≤ (withSlack slack text).length := by simp [withSlack, nonempty]
      simp only [List.flatten_cons, none, List.append_nil]
      omega
    · have later := inductionHypothesis (cursor.advance text) still none
      have within : reach slack (cursor.advance text) rest ≤ reach slack cursor (text :: rest) :=
        Nat.le_max_right _ _
      have count : (cursor.advance text).counted = cursor.counted + text.length := rfl
      rw [List.flatten_cons, List.length_append]
      omega

/-- What is stored stays below a bound exactly when every nonempty text does, at the
position that the texts before it have left. -/
theorem reach_le_iff (slack : List Byte) (cursor : Cursor) (texts : List (List Byte))
    (bound : Nat) :
    reach slack cursor texts ≤ bound ↔ ∀ index text, texts[index]? = some text → text ≠ [] →
      (cursor.after (texts.take index)).position + (text.length + slack.length) ≤ bound := by
  induction texts generalizing cursor with
  | nil => simp [reach]
  | cons first rest inductionHypothesis =>
    rw [reach, Nat.max_le, inductionHypothesis]
    constructor
    · rintro ⟨here, later⟩ index text found shown
      cases index with
      | zero =>
        obtain rfl : first = text := by simpa using found
        rw [if_neg shown] at here
        simpa [withSlack, shown, Cursor.after] using here
      | succ index => exact later index text (by simpa using found) shown
    · intro all
      refine ⟨?_, fun index text found shown => all (index + 1) text (by simpa using found) shown⟩
      by_cases empty : first = []
      · simp [empty]
      · have here := all 0 first rfl empty
        simpa [withSlack, empty, Cursor.after] using here

end Pyrometer.RunningOffsets
