import Pyrometer.ByteMemory

/-!
# Bytes written one behind the other

A writer is a memory and the address of the byte that is written next. What is written lies
behind the place where the writer started; what is in front of it is left alone. A part of a
memory is turned round by two addresses that move towards each other.
-/

namespace Pyrometer.ByteWriting

open ByteMemory

/-- A memory, and the address of the byte that is written next. -/
abbrev Writer := Mem × Nat

/-- A byte is written, and the address moves on. -/
def put (writer : Writer) (byte : Byte) : Writer :=
  (Function.update writer.1 writer.2 byte, writer.2 + 1)

/-- Bytes are written one behind the other. -/
def puts (writer : Writer) (bytes : List Byte) : Writer := bytes.foldl put writer

/-- Two bytes of a memory change places. -/
def swap (memory : Mem) (first last : Nat) : Mem :=
  Function.update (Function.update memory first (memory last)) last (memory first)

/-- Two addresses move towards each other, and the bytes at them change places. -/
def turn (memory : Mem) (first : Nat) : Nat → Mem
  | 0 => memory
  | last + 1 =>
      if first < last + 1 then turn (swap memory first (last + 1)) (first + 1) last else memory

/-- Bytes are written behind others. -/
theorem puts_append (writer : Writer) (front bytes : List Byte) :
    puts writer (front ++ bytes) = puts (puts writer front) bytes :=
  List.foldl_append

/-- The address moves on with each byte. -/
theorem puts_place (writer : Writer) (bytes : List Byte) :
    (puts writer bytes).2 = writer.2 + bytes.length := by
  induction bytes generalizing writer with
  | nil => rfl
  | cons byte rest inductionHypothesis =>
    calc (puts (put writer byte) rest).2
      _ = writer.2 + 1 + rest.length := inductionHypothesis (put writer byte)
      _ = writer.2 + (byte :: rest).length := by
        rw [List.length_cons, Nat.add_right_comm, Nat.add_assoc]

/-- What is in front of the writer is left alone. -/
theorem puts_before (writer : Writer) (bytes : List Byte) {address : Nat}
    (before : address < writer.2) : (puts writer bytes).1 address = writer.1 address := by
  induction bytes generalizing writer with
  | nil => rfl
  | cons byte rest inductionHypothesis =>
    calc (puts (put writer byte) rest).1 address
      _ = (put writer byte).1 address :=
        inductionHypothesis (put writer byte) (Nat.lt_succ_of_lt before)
      _ = writer.1 address := Function.update_of_ne (Nat.ne_of_lt before) _ _

/-- What was written lies behind the place where the writer started. -/
theorem puts_bytes (writer : Writer) (bytes : List Byte) :
    toList (puts writer bytes).1 writer.2 bytes.length = bytes := by
  induction bytes generalizing writer with
  | nil => rfl
  | cons byte rest inductionHypothesis =>
    have first : (puts (put writer byte) rest).1 writer.2 = byte := by
      rw [puts_before (put writer byte) rest (Nat.lt_succ_self writer.2)]
      exact Function.update_self writer.2 byte writer.1
    have others := inductionHypothesis (put writer byte)
    rw [List.length_cons, Nat.add_comm, to_list_append, to_list_one]
    exact congrArg₂ List.cons first others

/-- The first byte of a swap comes from the last one. -/
theorem swap_first (memory : Mem) (first last : Nat) :
    swap memory first last first = memory last := by
  by_cases same : first = last
  · rw [swap, same, Function.update_self]
  · rw [swap, Function.update_of_ne same, Function.update_self]

/-- The last byte of a swap comes from the first one. -/
theorem swap_last (memory : Mem) (first last : Nat) :
    swap memory first last last = memory first :=
  Function.update_self last _ _

/-- Other bytes are left alone by a swap. -/
theorem swap_other (memory : Mem) {first last address : Nat} (notFirst : address ≠ first)
    (notLast : address ≠ last) : swap memory first last address = memory address :=
  (Function.update_of_ne notLast _ _).trans (Function.update_of_ne notFirst _ _)

/-- Each byte between the two addresses comes from the mirrored one, and bytes elsewhere are
left alone. -/
theorem turn_at (memory : Mem) (first last address : Nat) :
    turn memory first last address =
      if first ≤ address ∧ address ≤ last then memory (first + last - address)
      else memory address := by
  induction last generalizing memory first with
  | zero =>
    rw [turn]
    split
    case isTrue inside =>
      have start : first + 0 - address = address := by omega
      rw [start]
    case isFalse => rfl
  | succ last inductionHypothesis =>
    rw [turn]
    by_cases less : first < last + 1
    · rw [if_pos less, inductionHypothesis]
      by_cases start : address = first
      · have mirrored : first + (last + 1) - first = last + 1 := by omega
        rw [start, if_neg (by omega), if_pos (by omega), mirrored]
        exact swap_first memory first (last + 1)
      by_cases stop : address = last + 1
      · have mirrored : first + (last + 1) - (last + 1) = first := by omega
        rw [stop, if_neg (by omega), if_pos (by omega), mirrored]
        exact swap_last memory first (last + 1)
      by_cases between : first + 1 ≤ address ∧ address ≤ last
      · have mirrored : first + 1 + last - address = first + (last + 1) - address := by omega
        rw [if_pos between, if_pos (by omega), mirrored]
        exact swap_other memory (by omega) (by omega)
      · rw [if_neg between, if_neg (by omega)]
        exact swap_other memory start stop
    · rw [if_neg less]
      split
      case isTrue inside =>
        have middle : first + (last + 1) - address = address := by omega
        rw [middle]
      case isFalse => rfl

/-- The bytes between the two addresses are turned round. -/
theorem turn_bytes (memory : Mem) (start len : Nat) :
    toList (turn memory start (start + len - 1)) start len = (toList memory start len).reverse := by
  apply List.ext_getElem
  · rw [List.length_reverse, to_list_length, to_list_length]
  · intro index inside _
    rw [to_list_length] at inside
    have mirrored : start + (start + len - 1) - (start + index) = start + (len - 1 - index) := by
      omega
    simp only [toList, List.getElem_map, List.getElem_range, List.getElem_reverse,
      List.length_map, List.length_range, turn_at]
    rw [if_pos (by omega), mirrored]

/-- The byte behind the two addresses is left alone. -/
theorem turn_behind (memory : Mem) {first last address : Nat} (behind : last < address) :
    turn memory first last address = memory address := by
  rw [turn_at, if_neg (by omega)]

end Pyrometer.ByteWriting
