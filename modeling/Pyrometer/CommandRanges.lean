import Pyrometer.Runs
import Pyrometer.SetAtomicity
import Pyrometer.SetGetAgreement

/-!
# Integer fields and the ranges of their rows

With develop mode off, a set command reaches the bytes of its row and of its callback
and no others, so a field changes through its own row or through one of six commands
that share it. A number of its own row has passed the range of that row. What the
others leave is a constant in the range, or the old number with some bytes cleared.

Some rows write fewer bytes than their field has: the bytes above stay, and they are
zero as long as the number is in the range. The table has integers in formats for
unsigned numbers only. The field of `PR` is a request and is no setting.
-/

namespace Pyrometer.CommandRanges

open ByteMemory BinaryFloats CText CommandTable ParameterLayout InstrumentState UppParser UppLines
open CommandExecution UppStream CommandReplies AlgorithmCommands CommandEffects SetCommands SetFrame
open SetAtomicity SetGetAgreement Instrument

/-- The data of a group. -/
def groupTarget (group : ParaType) : Target := ⟨.para, group.offset, group.size⟩

/-- Everything that a set command of a row may touch while the checks are on. -/
def reach (item : CmdItem) : List Target :=
  ⟨item.arg.target.region, item.arg.target.offset, objectSize item⟩ ::
    ((assigned item.id).map Member.target ++
      (if isCoefCmd item.id then [groupTarget .algo] else []) ++ sealed)

/-- What a query may touch. -/
def queried : List Target := [Member.videoCtlState.target, Member.videoCtlVal.target]

/-- The field of a row holds a number of the range that the row declares. -/
def InRange (item : CmdItem) (instrument : Instrument) : Prop :=
  ∀ rule ∈ unsignedRule item.rule.data,
    rule.2.1 ≤ instrument.value item.arg ∧ instrument.value item.arg ≤ rule.2.2

instance (item : CmdItem) (instrument : Instrument) : Decidable (InRange item instrument) :=
  inferInstanceAs (Decidable (∀ rule ∈ unsignedRule item.rule.data, _))

/-- Every integer field that a command sets, other than those of some commands, is in the
range of its row. -/
def IntegersInRange (without : List CmdId) (instrument : Instrument) : Prop :=
  ∀ item ∈ cmdTbl, item.props.contains .s = true → item.id ∉ without → InRange item instrument

/-- A part of a larger object is confined to it. -/
theorem confined_cover {small large : List Target} {before after : Instrument}
    (covered : ∀ target ∈ small, ∃ larger ∈ large, larger.region = target.region ∧
      larger.offset ≤ target.offset ∧
        target.offset + target.size ≤ larger.offset + larger.size)
    (confined : Confined small before after) : Confined large before after := by
  intro region address outside
  refine confined region address ?_
  rintro ⟨target, listed, place, low, high⟩
  obtain ⟨larger, member, same, start, stop⟩ := covered target listed
  exact outside ⟨larger, member, same.trans place, start.trans low, high.trans_le stop⟩

/-- What a callback may touch is in the reach of its row. -/
theorem effect_reached {item : CmdItem} {raw : List Byte} {before after : Instrument}
    (confined : Confined (effectTargets item.id raw) before after) :
    Confined (reach item) before after := by
  refine confined_cover (fun target listed => ?_) confined
  rw [effectTargets, List.mem_append, List.mem_append] at listed
  rcases listed with (member | coef) | words
  · exact ⟨target, by simp [reach, member], rfl, le_rfl, le_rfl⟩
  · have coefficient : isCoefCmd item.id = true := by
      by_contra other
      rw [loaded, if_neg other] at coef
      cases coef
    have para : target.region = .para := by
      rw [loaded, if_pos coefficient] at coef
      obtain ⟨write, _, rfl⟩ := List.mem_map.mp coef
      rfl
    obtain ⟨low, high⟩ := loaded_in_group item.id raw target coef para
    exact ⟨groupTarget .algo, by simp [reach, coefficient], para.symm, low, high⟩
  · split_ifs at words
    · exact ⟨target, by simp [reach, words], rfl, le_rfl, le_rfl⟩
    · cases words

/-- A store to the object of a row that is not too long is in its reach. -/
theorem store_reached {item : CmdItem} (instrument : Instrument) {bytes : List Byte}
    (fits : bytes.length ≤ objectSize item) :
    Confined (reach item) instrument
      (instrument.store item.arg.target.offset bytes item.arg.target.region) := by
  refine confined_cover ?_ (confined_store instrument item.arg.target.offset bytes
    item.arg.target.region)
  intro target listed
  obtain rfl := List.mem_singleton.mp listed
  exact ⟨_, List.mem_cons_self, rfl, le_rfl, Nat.add_le_add_left fits _⟩

/-- A save is in the reach of every row. -/
theorem save_reached (item : CmdItem) (instrument : Instrument) (group : ParaType) :
    Confined (reach item) instrument (instrument.saveGroup group) :=
  confined_mono (fun target listed => by simp [reach, listed]) (confined_save instrument group)

/-- The bytes that are copied back are not more than those that were written. -/
theorem data_bkp_length (around : Surroundings) {instrument : Instrument} {parsed : Line}
    {item : CmdItem} {bytes : List Byte}
    (passed : newBytes instrument (parsedLine parsed) item = .ok bytes) :
    (dataBkp around instrument (parsedLine parsed) item).length ≤ bytes.length := by
  by_cases string : ∃ chk, item.rule.data = .s chk
  · obtain ⟨chk, rule⟩ := string
    rw [new_bytes_text rule passed, dataBkp, rule]
    cases chk <;> simp
  · have plain : ∀ chk, item.rule.data ≠ .s chk := fun chk rule => string ⟨chk, rule⟩
    rw [rolled_back_plain around instrument parsed item bytes plain passed, to_list_length]

/-- What a row reaches of the parameters are its group and the words of a save. -/
theorem reach_in_group {item : CmdItem} (listed : item ∈ cmdTbl)
    (settable : item.props.contains .s = true) {target : Target} (reached : target ∈ reach item) :
    target ∈ sealed ∨ InGroup item.group target := by
  obtain ⟨_, assigns, coefs, plain⟩ := rows_in_group item listed settable
  simp only [reach, List.mem_cons, List.mem_append] at reached
  rcases reached with rfl | (member | coef) | words
  · refine Or.inr ?_
    cases data : item.rule.data
    case s chk =>
      rw [objectSize, data]
      exact texts_in_group item listed settable chk (checks_listed chk) data
    all_goals
      rw [objectSize, data]
      rw [data] at plain
      exact plain
  · obtain ⟨own, chosen, rfl⟩ := List.mem_map.mp member
    exact Or.inr (assigns own chosen)
  · split_ifs at coef with coefficient
    · obtain rfl := List.mem_singleton.mp coef
      refine Or.inr (fun _ => ?_)
      rw [coefs coefficient]
      exact ⟨le_rfl, le_rfl⟩
    · cases coef
  · exact Or.inl words

/-- The fields of one group are out of reach of the rows of another one. -/
theorem other_group_apart {item : CmdItem} (listed : item ∈ cmdTbl)
    (settable : item.props.contains .s = true) {group : ParaType} (different : item.group ≠ group)
    {target : Target} (para : target.region = .para) (inGroup : InGroup group target) :
    Apart (reach item) target := by
  intro other reached
  rcases reach_in_group listed settable reached with words | inside
  · exact in_group_apart_sealed inGroup other words
  · cases region : other.region with
    | state =>
      rw [para]
      exact Or.inl Region.noConfusion
    | para =>
      have own := inside region
      have field := inGroup para
      refine Or.inr ?_
      rcases groups_disjoint item.group group different with before | behind
      · exact Or.inl (by omega)
      · exact Or.inr (by omega)

section Attempts

variable (around : Surroundings) {instrument : Instrument} {line : List Byte} {parsed : Line}
  {item : CmdItem} {bytes : List Byte}

/-- An attempt leaves what its callback made of the written bytes, saved or rolled back. -/
theorem attempt_outcome (attempt : Attempt instrument line parsed item bytes) :
    (∃ left, setEffect around (parsedLine parsed) (written instrument item bytes) item.id =
        (true, left) ∧ (answerLine around line instrument).2 = kept item left) ∨
      ∃ left, setEffect around (parsedLine parsed) (written instrument item bytes) item.id =
        (false, left) ∧
          (answerLine around line instrument).2 =
            rolledBack around instrument parsed item left := by
  rcases called : setEffect around (parsedLine parsed) (written instrument item bytes) item.id
    with ⟨success, left⟩
  cases success with
  | true => exact Or.inl ⟨left, rfl, by rw [answer_accepted around attempt called]⟩
  | false => exact Or.inr ⟨left, rfl, by rw [answer_refused around attempt called]⟩

/-- With the checks on, an attempt stays in the reach of its row. -/
theorem attempt_reached (attempt : Attempt instrument line parsed item bytes)
    (checks : instrument.develop = false) :
    Confined (reach item) instrument (answerLine around line instrument).2 := by
  have size := attempt_size attempt checks
  have stored : Confined (reach item) instrument (written instrument item bytes) :=
    store_reached instrument size
  have effect := effect_reached (set_effect_confined around (parsedLine parsed)
    (written instrument item bytes) item.id)
  rcases attempt_outcome around attempt with ⟨left, called, after⟩ | ⟨left, called, after⟩
  · rw [called] at effect
    rw [after, kept]
    split_ifs
    · exact confined_trans (confined_trans stored effect) (save_reached item _ _)
    · exact confined_trans stored effect
  · rw [called] at effect
    rw [after, rolledBack]
    exact confined_trans (confined_trans stored effect)
      (store_reached left ((data_bkp_length around attempt.value).trans size))

/-- A line that is no attempt changes a request to the camera at most. -/
theorem other_line_confined
    (absent : ¬∃ parsed item bytes, Attempt instrument line parsed item bytes) :
    Confined queried instrument (answerLine around line instrument).2 := by
  rcases line_cases around instrument line with tried | ⟨parsed, read, query⟩ | ⟨err, silent, _⟩
  · exact absurd tried absent
  · rcases query_cases around read query with ⟨err, silent⟩ | ⟨item, row, pollable⟩
    · rw [silent]
      exact confined_refl _ _
    · have got : Confined queried instrument
          (executeGet (parsedLine parsed) item instrument).2 := by
        rw [executeGet]
        split_ifs
        · cases algoGet instrument.pmm.sysPara <;> exact confined_refl _ _
        · exact confined_refl _ _
        · cases uvcRequest item.id with
          | none => exact confined_refl _ _
          | some request => exact confined_uvc instrument (request + 5)
      rw [answer_query around read query row pollable]
      rcases result : executeGet (parsedLine parsed) item instrument with ⟨filled | err, left⟩ <;>
        rw [result] at got <;> exact got
  · rw [silent]
    exact confined_refl _ _

end Attempts

/-- The commands that reach the integer field of another row: the upper bytes of the
written gain, the zero behind a full text, and the outputs that return to automatic control. -/
def sharing : List (CmdId × CmdId) :=
  [(.cmdGa, .cmdOfn), (.cmdNb, .cmdRq), (.cmdAl, .cmdOi), (.cmdAh, .cmdOi), (.cmdIl, .cmdOi),
    (.cmdIh, .cmdOi)]

/-- The rows of a group that can be set. -/
def groupRows (group : ParaType) : List CmdItem :=
  cmdTbl.filter (fun item => item.props.contains .s && item.group == group)

/-- The rows that reach `sys_state`. -/
def stateRows : List CmdItem :=
  cmdTbl.filter (fun item => item.props.contains .s &&
    (reach item).any (fun target => target.region == .state))

/-- Two rows have one field and one range. -/
def SameField (item other : CmdItem) : Prop :=
  item.arg = other.arg ∧ unsignedRule item.rule.data = unsignedRule other.rule.data

instance (item other : CmdItem) : Decidable (SameField item other) :=
  inferInstanceAs (Decidable (_ ∧ _))

/-- A row reaches the field of another one only if they have the field in common or share it. -/
def Separate (item other : CmdItem) : Prop :=
  Apart (reach item) other.arg.target ∨ SameField item other ∨ (item.id, other.id) ∈ sharing

instance (item other : CmdItem) : Decidable (Separate item other) :=
  inferInstanceAs (Decidable (_ ∨ _))

/-- The integer fields: a number of the row fits both what is written and the field, what of
the field is not written is out of reach, queries do not reach it, and neither do rows of its
group, nor rows of `sys_state` if it lies there. -/
theorem integer_fields : ∀ group ∈ ParaType.all, ∀ other ∈ groupRows group,
    ∀ rule ∈ unsignedRule other.rule.data,
      (rule.2.2 < 256 ^ rule.1 ∧ rule.2.2 < 256 ^ other.arg.target.size ∧
        Apart (reach other) ⟨other.arg.target.region, other.arg.target.offset + rule.1,
          other.arg.target.size - rule.1⟩) ∧
        Apart queried other.arg.target ∧ InGroup other.group other.arg.target ∧
        (∀ item ∈ groupRows group, Separate item other) ∧
        (other.arg.target.region = .state → ∀ item ∈ stateRows, Separate item other) := by
  decide

/-- The rows whose fields are shared, and the last byte of the offset, which is out of reach of
the gain. -/
theorem shared_rows : ∀ item ∈ cmdTbl,
    (item.id = .cmdOi → item.arg = .anaCurtValue ∧ item.rule.data = .u32 0 60000000) ∧
      (item.id = .cmdOfn → item.arg = .adcOffs0 ∧ item.rule.data = .u32 0 10000000) ∧
      (item.id = .cmdRq → item.arg = .indexClear ∧ item.rule.data = .u8 0 2) ∧
      (item.id = .cmdGa → Apart (reach item) ⟨.para, Member.adcOffs0.target.offset + 3, 1⟩) := by
  decide +kernel

/-- A row that can be set is among those of its group. -/
theorem mem_group_rows {item : CmdItem} (listed : item ∈ cmdTbl)
    (settable : item.props.contains .s = true) : item ∈ groupRows item.group := by
  refine List.mem_filter.mpr ⟨listed, ?_⟩
  rw [settable, beq_self_eq_true]
  rfl

/-- A row is separate from the integer fields of all others. -/
theorem rows_separate {item other : CmdItem} (listed : item ∈ cmdTbl)
    (settable : item.props.contains .s = true) (member : other ∈ cmdTbl)
    (set : other.props.contains .s = true)
    (integer : (unsignedRule other.rule.data).isSome = true) : Separate item other := by
  obtain ⟨rule, named⟩ := Option.isSome_iff_exists.mp integer
  obtain ⟨_, _, inGroup, near, state⟩ :=
    integer_fields other.group (mem_all _) other (mem_group_rows member set) rule named
  cases region : other.arg.target.region with
  | para =>
    by_cases same : item.group = other.group
    · refine near item ?_
      rw [← same]
      exact mem_group_rows listed settable
    · exact Or.inl (other_group_apart listed settable same region inGroup)
  | state =>
    by_cases reached : (reach item).any (fun target => target.region == .state) = true
    · refine state region item (List.mem_filter.mpr ⟨listed, ?_⟩)
      rw [settable, reached]
      rfl
    · refine Or.inl (fun target place => Or.inl ?_)
      rw [region]
      intro inState
      exact reached (List.any_eq_true.mpr ⟨target, place, by rw [inState]; rfl⟩)

/-- A number in two parts. -/
theorem little_endian_append (low high : List Byte) :
    littleEndian (low ++ high) = littleEndian low + 256 ^ low.length * littleEndian high := by
  induction low with
  | nil => simp [littleEndian]
  | cons byte rest inductionHypothesis =>
    have whole : littleEndian (byte :: rest ++ high) =
        byte.toNat + 256 * littleEndian (rest ++ high) := rfl
    have part : littleEndian (byte :: rest) = byte.toNat + 256 * littleEndian rest := rfl
    rw [whole, part, inductionHypothesis, List.length_cons, pow_succ]
    ring

/-- Cleared bytes make a number smaller. -/
theorem cleared_smaller {left right : Mem} {start len : Nat}
    (cleared : ∀ address, start ≤ address → address < start + len →
      left address = right address ∨ left address = 0) :
    littleEndian (toList left start len) ≤ littleEndian (toList right start len) := by
  induction len generalizing start with
  | zero => exact le_rfl
  | succ len inductionHypothesis =>
    have first : (left start).toNat ≤ (right start).toNat := by
      rcases cleared start le_rfl (by omega) with same | zero
      · rw [same]
      · rw [zero]
        exact Nat.zero_le _
    have rest := @inductionHypothesis (start + 1)
      (fun address low high => cleared address (by omega) (by omega))
    rw [Nat.add_comm len 1, to_list_append, to_list_append, little_endian_append,
      little_endian_append]
    simp only [to_list_one, littleEndian, List.foldr_cons, List.foldr_nil, List.length_singleton]
      at rest ⊢
    omega

/-- A number below a power has nothing in the bytes from there on. -/
theorem high_part_zero {low high : List Byte} {bound : Nat}
    (small : littleEndian (low ++ high) ≤ bound) (fits : bound < 256 ^ low.length) :
    littleEndian high = 0 := by
  rw [little_endian_append] at small
  by_contra some
  have large : 256 ^ low.length ≤ 256 ^ low.length * littleEndian high :=
    Nat.le_mul_of_pos_right _ (Nat.pos_of_ne_zero some)
  omega

/-- A number written to the first bytes of a range, or beyond its end, is the number of the
range if its bound fits both and the old number was not above that bound. -/
theorem number_replaced {before after : Mem} {start size width number bound : Nat}
    (stored : toList after start width = leBytes width number)
    (above : toList after (start + width) (size - width) =
      toList before (start + width) (size - width))
    (old : littleEndian (toList before start size) ≤ bound) (new : number ≤ bound)
    (fits : bound < 256 ^ width) (room : bound < 256 ^ size) :
    littleEndian (toList after start size) = number := by
  have whole : littleEndian (toList after start width) = number := by
    rw [stored, little_endian_le_bytes, Nat.mod_eq_of_lt (new.trans_lt fits)]
  rcases le_total width size with short | long
  · obtain ⟨more, rfl⟩ := Nat.exists_eq_add_of_le short
    rw [Nat.add_sub_cancel_left] at above
    rw [to_list_append] at old
    have zero := high_part_zero old (by simpa using fits)
    rw [to_list_append, little_endian_append, above, zero, whole]
    rfl
  · obtain ⟨more, rfl⟩ := Nat.exists_eq_add_of_le long
    rw [to_list_append] at whole
    have zero := high_part_zero (whole.trans_le new) (by simpa using room)
    rw [little_endian_append, zero] at whole
    exact whole

section Rows

variable (around : Surroundings) {instrument : Instrument} {line : List Byte} {parsed : Line}
  {item : CmdItem} {bytes : List Byte}

/-- A field that an attempt replaces by a number of its row is in the range behind it. -/
theorem replaced_in_range (listed : item ∈ cmdTbl) (settable : item.props.contains .s = true)
    {width min max number : Nat} (rule : unsignedRule item.rule.data = some (width, min, max))
    {after : Instrument} (confined : Confined (reach item) instrument after)
    (there : (placed item (leBytes width number)).There after) (above : min ≤ number)
    (below : number ≤ max) (before : InRange item instrument) : InRange item after := by
  obtain ⟨⟨fits, room, apart⟩, _⟩ :=
    integer_fields item.group (mem_all _) item (mem_group_rows listed settable) _ rule
  have stored : toList (after.region item.arg.target.region) item.arg.target.offset width =
      leBytes width number := by
    have read := there
    rw [Overrun.There, placed, le_bytes_length] at read
    exact read
  have above_kept := to_list_congr (fun address low high =>
    confined item.arg.target.region address (apart_outside apart low high))
  have replaced : after.value item.arg = number :=
    number_replaced stored above_kept (before (width, min, max) rule).2 below fits room
  intro other same
  obtain rfl := Option.some.inj (rule.symm.trans same)
  rw [replaced]
  exact ⟨above, below⟩

/-- A refused row whose field has the width of its format has its old bytes. -/
theorem refused_bytes (attempt : Attempt instrument line parsed item bytes)
    (plain : ∀ chk, item.rule.data ≠ .s chk)
    (whole : fmtWidth item.rule.data = item.arg.target.size) (left : Instrument) :
    (rolledBack around instrument parsed item left).bytes item.arg =
      instrument.bytes item.arg := by
  have old := rolled_back_plain around instrument parsed item bytes plain attempt.value
  have read := store_read left item.arg.target.offset
    (dataBkp around instrument (parsedLine parsed) item) item.arg.target.region
  rw [old, to_list_length, new_bytes_length plain attempt.value, whole] at read
  rw [rolledBack, old, new_bytes_length plain attempt.value, whole]
  exact read

/-- An attempt keeps the field of its own row in the range. -/
theorem own_row_in_range (attempt : Attempt instrument line parsed item bytes)
    (checks : instrument.develop = false) (before : InRange item instrument) :
    InRange item (answerLine around line instrument).2 := by
  cases rule : unsignedRule item.rule.data with
  | none =>
    intro limits same
    rw [rule] at same
    cases same
  | some limits =>
    obtain ⟨width, min, max⟩ := limits
    have format : agreeing item.rule.data = true := by
      cases data : item.rule.data <;> rw [data] at rule <;> first | rfl | cases rule
    rcases attempt_outcome around attempt with ⟨left, called, after⟩ | ⟨left, called, after⟩
    · have value := attempt.value
      rw [(unsigned_format rule).1, checks] at value
      obtain ⟨number, read, rfl⟩ := map_ok value
      obtain ⟨above, below⟩ := read_unsigned_range read
      have confined := attempt_reached around attempt checks
      rw [after] at confined ⊢
      exact replaced_in_range attempt.listed attempt.settable rule confined
        (kept_placed around attempt checks format called) above below before
    · obtain ⟨rate, calibration, coefficients, limits⟩ := refusing_rows item attempt.listed
      rcases set_effect_refused called with ⟨id, _⟩ | ⟨id, _⟩ | ⟨id, _⟩ | ⟨id, _⟩
      · obtain ⟨arg, data⟩ := rate id
        have same : (answerLine around line instrument).2.value item.arg =
            instrument.value item.arg := by
          rw [after]
          exact congrArg littleEndian (refused_bytes around attempt (by simp [data])
            (by rw [data, arg]; rfl) left)
        intro limits same_rule
        rw [same]
        exact before limits same_rule
      · rw [(calibration id).2] at rule
        cases rule
      · rw [(coefficients id).2] at rule
        cases rule
      · rw [limits id] at rule
        cases rule

/-- A field out of reach stays in the range. -/
theorem apart_in_range {targets : List Target} {other : CmdItem} {after : Instrument}
    (confined : Confined targets instrument after) (apart : Apart targets other.arg.target)
    (before : InRange other instrument) : InRange other after := by
  intro limits named
  rw [value_kept confined apart]
  exact before limits named

/-- A number that became smaller stays in a range from zero on. -/
theorem smaller_in_range {other : CmdItem} {width max : Nat} {after : Instrument}
    (rule : unsignedRule other.rule.data = some (width, 0, max))
    (smaller : after.value other.arg ≤ instrument.value other.arg)
    (before : InRange other instrument) : InRange other after := by
  intro limits same
  obtain rfl := Option.some.inj (rule.symm.trans same)
  exact ⟨Nat.zero_le _, smaller.trans (before _ rule).2⟩

/-- A gain of zero is written over the first bytes of the offset behind it. -/
theorem gain_clears_offset (attempt : Attempt instrument line parsed item bytes)
    (checks : instrument.develop = false) (gain : item.id = .cmdGa) :
    (answerLine around line instrument).2.value .adcOffs0 ≤ instrument.value .adcOffs0 := by
  obtain ⟨arg, data⟩ := (overrun_rows item attempt.listed attempt.settable).1 gain
  have confined := attempt_reached around attempt checks
  rcases attempt_outcome around attempt with ⟨left, called, after⟩ | ⟨left, called, _⟩
  · have there := kept_placed around attempt checks (by rw [data]; rfl) called
    have value := attempt.value
    have rule : unsignedRule item.rule.data = some (4, 0, 0) := by rw [data]; rfl
    rw [(unsigned_format rule).1, checks] at value
    obtain ⟨number, read, rfl⟩ := map_ok value
    obtain rfl : number = 0 := Nat.le_zero.mp (read_unsigned_range read).2
    rw [← after, Overrun.There, placed, le_bytes_length, arg] at there
    have zeros : Agree ((answerLine around line instrument).2.region .para) (fun _ => 0)
        Member.adcPga.target.offset 4 := agree_of_to_list there
    refine cleared_smaller (fun address low high => ?_)
    by_cases first : address < Member.adcPga.target.offset + 4
    · exact Or.inr (zeros address ((Nat.le_succ _).trans low) first)
    · refine Or.inl (confined .para address (apart_outside
        ((shared_rows item attempt.listed).2.2.2 gain) ?_ ?_))
      · exact not_lt.mp first
      · exact high
  · rcases set_effect_refused called with ⟨id, _⟩ | ⟨id, _⟩ | ⟨id, _⟩ | ⟨id, _⟩ <;>
      rw [gain] at id <;> exact absurd id (by decide)

/-- Behind its object, the callback of a coefficient command leaves of `sys_state` what was
written, and so does a refusal that copies no more bytes back than the object has. -/
theorem coefficient_state (attempt : Attempt instrument line parsed item bytes)
    (coef : isCoefCmd item.id = true) {address : Nat}
    (behind : item.arg.target.offset + (cString parsed.data).length ≤ address) :
    (answerLine around line instrument).2.sysState address =
      (written instrument item bytes).sysState address := by
  have data := ((refusing_rows item attempt.listed).2.2.1 coef).2
  have effect : (setEffect around (parsedLine parsed) (written instrument item bytes)
      item.id).2.sysState address = (written instrument item bytes).sysState address := by
    have empty : assigned item.id = [] ∧ item.id ≠ .cmdCa := by
      rw [isCoefCmd, List.contains_eq_mem, decide_eq_true_eq] at coef
      revert coef
      generalize item.id = id
      revert id
      simp only [List.forall_mem_cons]
      decide
    have confined := confined_load around (parsedLine parsed) (written instrument item bytes)
      item.id coef
    refine confined .state address ?_
    rintro ⟨target, listed, region, _⟩
    rw [effectTargets, empty.1, if_neg empty.2, List.map_nil, List.nil_append, List.append_nil,
      loaded, if_pos coef] at listed
    obtain ⟨write, _, rfl⟩ := List.mem_map.mp listed
    cases region
  rcases attempt_outcome around attempt with ⟨left, called, after⟩ | ⟨left, called, after⟩
  · rw [called] at effect
    rw [after, kept]
    split_ifs <;> exact effect
  · rw [called] at effect
    have copied : (dataBkp around instrument (parsedLine parsed) item).length =
        (cString parsed.data).length := by
      rw [dataBkp, data]
      simp [text]
    have outside := store_region left item.arg.target.offset
      (dataBkp around instrument (parsedLine parsed) item) item.arg.target.region .state address
    rw [if_neg (by omega)] at outside
    rw [after, rolledBack]
    exact outside.trans effect

/-- The zero behind a text that fills its object is written over the first byte behind it. -/
theorem text_clears_index (attempt : Attempt instrument line parsed item bytes)
    (checks : instrument.develop = false) (network : item.id = .cmdNb) :
    (answerLine around line instrument).2.value .indexClear ≤ instrument.value .indexClear := by
  obtain ⟨_, _, _, _, _, _, row⟩ := overrun_rows item attempt.listed attempt.settable
  obtain ⟨arg, rule⟩ := row network
  have data : item.rule.data = .s none := by rw [rule]
  have short : (cString parsed.data).length ≤ 1024 := by
    have length := text_length attempt checks
    rw [rule] at length
    exact length
  have string : bytes = cString parsed.data ++ [0] := by
    rw [new_bytes_text data attempt.value, text, raw_parsed]
  have place : item.arg.target.offset + 1024 = Member.indexClear.target.offset := by rw [arg]; rfl
  refine cleared_smaller (fun address low high => ?_)
  have state := coefficient_state around attempt (by rw [network]; rfl)
    (show item.arg.target.offset + (cString parsed.data).length ≤ address by omega)
  have stored := store_region instrument item.arg.target.offset bytes item.arg.target.region
    .state address
  have byte : bytes.getD (address - item.arg.target.offset) 0 = 0 := by
    rw [string, List.getD_append_right _ _ _ _ (by omega)]
    cases address - item.arg.target.offset - (cString parsed.data).length <;> rfl
  rw [byte] at stored
  split_ifs at stored
  · exact Or.inr (state.trans stored)
  · exact Or.inl (state.trans stored)

/-- The calibration of the output leaves the current in automatic control. -/
theorem calib_para_auto (instrument : Instrument) :
    (getCalibPara instrument).value .anaCurtValue = anaOutAuto := by
  have auto : (anaAuto instrument).value .anaCurtValue = anaOutAuto := by
    rw [anaAuto, value_kept (confined_put _ .anaVoltValue anaOutAuto) (by decide), value, put_bytes,
      little_endian_le_bytes]
    decide
  have same : ∀ after : Instrument, after.pmm = (anaAuto instrument).pmm →
      after.sysState = (anaAuto instrument).sysState → after.value .anaCurtValue = anaOutAuto := by
    intro after pmm state
    have confined : Confined [] (anaAuto instrument) after :=
      confined_same (congrArg _ pmm) state
    rw [value_kept confined (by decide), auto]
  rw [getCalibPara]
  split_ifs
  · exact same _ rfl rfl
  · exact same _ rfl rfl

/-- The commands of the output leave the current as it was or in automatic control. -/
theorem output_current (attempt : Attempt instrument line parsed item bytes)
    (output : item.id ∈ [CmdId.cmdAl, .cmdAh, .cmdIl, .cmdIh]) :
    (answerLine around line instrument).2.value .anaCurtValue = anaOutAuto ∨
      (answerLine around line instrument).2.value .anaCurtValue =
        instrument.value .anaCurtValue := by
  rcases attempt_outcome around attempt with ⟨left, called, after⟩ | ⟨left, called, after⟩
  · have auto : left.value .anaCurtValue = anaOutAuto := by
      simp only [List.mem_cons, List.not_mem_nil, or_false] at output
      rcases output with id | id | id | id <;> rw [id, setEffect] at called
      · split_ifs at called
        · obtain rfl := congrArg Prod.snd called
          exact calib_para_auto _
        · cases called
      · split_ifs at called
        · obtain rfl := congrArg Prod.snd called
          exact calib_para_auto _
        · cases called
      · obtain rfl := congrArg Prod.snd called
        exact calib_para_auto _
      · obtain rfl := congrArg Prod.snd called
        exact calib_para_auto _
    refine Or.inl ?_
    rw [after, kept]
    split_ifs
    · rw [value_kept (confined_save left item.group) (by decide), auto]
    · exact auto
  · refine Or.inr ?_
    obtain ⟨_, _, _, limits⟩ := refusing_rows item attempt.listed
    rcases set_effect_refused called with ⟨id, _⟩ | ⟨id, _⟩ | ⟨id, _⟩ | ⟨id, rfl⟩
    · rw [id] at output
      exact absurd output (by decide)
    · rw [id] at output
      exact absurd output (by decide)
    · simp only [List.mem_cons, List.not_mem_nil, or_false] at output
      rcases output with other | other | other | other <;> rw [other] at id <;> cases id
    · rw [after, rolled_back_written around instrument parsed item bytes (by simp [limits id])
        attempt.value]

/-- The current stays in its range through the commands of the output. -/
theorem current_in_range (attempt : Attempt instrument line parsed item bytes) {other : CmdItem}
    (listed : other ∈ cmdTbl) (current : other.id = .cmdOi)
    (output : item.id ∈ [CmdId.cmdAl, .cmdAh, .cmdIl, .cmdIh])
    (before : InRange other instrument) : InRange other (answerLine around line instrument).2 := by
  obtain ⟨arg, data⟩ := (shared_rows other listed).1 current
  have rule : unsignedRule other.rule.data = some (4, 0, 60000000) := by rw [data]; rfl
  rcases output_current around attempt output with auto | same
  · intro limits named
    obtain rfl := Option.some.inj (rule.symm.trans named)
    rw [arg, auto]
    exact ⟨Nat.zero_le _, le_rfl⟩
  · refine smaller_in_range rule ?_ before
    rw [arg, same]

/-- With the checks on, an attempt keeps every integer field in its range. -/
theorem attempt_in_range (attempt : Attempt instrument line parsed item bytes)
    (checks : instrument.develop = false) {other : CmdItem} (listed : other ∈ cmdTbl)
    (settable : other.props.contains .s = true)
    (integer : (unsignedRule other.rule.data).isSome = true) (before : InRange other instrument) :
    InRange other (answerLine around line instrument).2 := by
  obtain ⟨_, offset, index, _⟩ := shared_rows other listed
  rcases rows_separate attempt.listed attempt.settable listed settable integer with
    apart | ⟨arg, rule⟩ | shared
  · exact apart_in_range (attempt_reached around attempt checks) apart before
  · have same : ∀ instrument, InRange item instrument ↔ InRange other instrument := by
      intro instrument
      rw [InRange, InRange, arg, rule]
    exact (same _).mp (own_row_in_range around attempt checks ((same _).mpr before))
  · simp only [sharing, List.mem_cons, List.not_mem_nil, or_false, Prod.mk.injEq] at shared
    rcases shared with ⟨gain, id⟩ | ⟨network, id⟩ | ⟨output, id⟩ | ⟨output, id⟩ | ⟨output, id⟩ |
      ⟨output, id⟩
    · obtain ⟨arg, data⟩ := offset id
      refine smaller_in_range (by rw [data]; rfl) ?_ before
      rw [arg]
      exact gain_clears_offset around attempt checks gain
    · obtain ⟨arg, data⟩ := index id
      refine smaller_in_range (by rw [data]; rfl) ?_ before
      rw [arg]
      exact text_clears_index around attempt checks network
    all_goals exact current_in_range around attempt listed id (by rw [output]; decide) before

/-- With the checks on, a line keeps all integer fields in their ranges. -/
theorem line_in_range {without : List CmdId} (line : List Byte)
    (checks : instrument.develop = false) (before : IntegersInRange without instrument) :
    IntegersInRange without (answerLine around line instrument).2 := by
  intro other listed settable counted limits named
  have integer : (unsignedRule other.rule.data).isSome = true := by
    rw [Option.mem_def.mp named]
    rfl
  have inside := before other listed settable counted
  refine (?_ : InRange other (answerLine around line instrument).2) limits named
  by_cases tried : ∃ parsed item bytes, Attempt instrument line parsed item bytes
  · obtain ⟨parsed, item, bytes, attempt⟩ := tried
    exact attempt_in_range around attempt checks listed settable integer inside
  · obtain ⟨_, apart, _⟩ :=
      integer_fields other.group (mem_all _) other (mem_group_rows listed settable) limits named
    exact apart_in_range (other_line_confined around tried) apart inside

end Rows

end Pyrometer.CommandRanges
