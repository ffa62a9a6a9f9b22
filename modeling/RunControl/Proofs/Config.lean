import Mathlib.Data.List.Forall2
import RunControl.Config
import RunControl.Proofs.HostEnvironment.Outcome
import RunControl.Proofs.Text.Blank
import RunControl.Proofs.Text.Cut
import RunControl.Proofs.Text.Numeral
import RunControl.Proofs.Text.Utf8

/-!
What a configuration is made of, whatever the environment holds.

A variable may be unset, empty, blank, no text at all, or any text. `Says`, `Counts` and `Lists` tell
what it is taken to say, without the functions that read it, and `ofEnvironment_safe` gives each
setting in these terms. So there is a group, a port, time for calls and for questions after the
helper, and a list of keys in every environment, and the number of questions can be counted in 32
bits.
-/

namespace RunControl

open Utf8 (Bytes)

namespace Config

variable {value : Option Bytes} {raw text : List Char} {n : Nat}

/-! ### What variables say -/

/-- The variable is set to a text, and this is left of it without the blanks at its ends. -/
structure Says (value : Option Bytes) (text : List Char) : Prop where
  written : ∃ raw, value = some (Utf8.encodeChars raw) ∧ Text.Trims raw text
  visible : text ≠ []

/-- The variable says a count. -/
def Counts (value : Option Bytes) (n : Nat) : Prop :=
  ∃ text, Says value text ∧ Text.Denotes text n

/-- The parts between the commas of a variable, without the blanks at their ends, as far as anything
is left of them. A variable that is set to no text has no parts. -/
inductive Lists : Option Bytes → List (List Char) → Prop where
  | parts {raw : List Char} {trimmed : List (List Char)}
      (each : List.Forall₂ Text.Trims (raw.splitOn ',') trimmed) :
      Lists (some (Utf8.encodeChars raw)) (trimmed.filter (· ≠ []))
  | none {value : Option Bytes} (unwritten : ∀ raw, value ≠ some (Utf8.encodeChars raw)) :
      Lists value []

theorem setting?_some (bytes : Bytes) : setting? (some bytes) = (Utf8.decodeChars? bytes).bind
    fun raw => if (Text.trim raw).isEmpty then none else some (Text.trim raw) :=
  rfl

/-- What a variable is set to is a text, or nothing that could be read. -/
theorem written_or_unwritten (value : Option Bytes) :
    (∃ raw, value = some (Utf8.encodeChars raw)) ∨
      ((∀ raw, value ≠ some (Utf8.encodeChars raw)) ∧ setting? value = none) := by
  cases value with
  | none => exact .inr ⟨nofun, rfl⟩
  | some bytes =>
      cases read : Utf8.decodeChars? bytes with
      | some raw => exact .inl ⟨raw, congrArg some (Utf8.decodeChars?_eq_some_iff.mp read)⟩
      | none =>
          refine .inr ⟨fun raw same => ?_, ?_⟩
          · rw [Option.some.inj same, Utf8.decodeChars?_encodeChars] at read
            cases read
          · rw [setting?_some, read, Option.bind_none]

theorem setting?_encodeChars (raw : List Char) :
    setting? (some (Utf8.encodeChars raw)) =
      if (Text.trim raw).isEmpty then none else some (Text.trim raw) := by
  rw [setting?_some, Utf8.decodeChars?_encodeChars, Option.bind_some]

/-- A setting is read of a variable exactly if the variable says it. -/
theorem setting?_eq_some_iff : setting? value = some text ↔ Says value text := by
  rcases written_or_unwritten value with ⟨raw, rfl⟩ | ⟨unwritten, unread⟩
  · rw [setting?_encodeChars]
    constructor
    · intro read
      split at read
      · cases read
      · rename_i visible
        cases read
        exact ⟨⟨raw, rfl, Text.trims_trim raw⟩, fun empty => visible (List.isEmpty_iff.mpr empty)⟩
    · rintro ⟨⟨raw', same, trims⟩, visible⟩
      have same' : raw = raw' := by
        have read := Utf8.decodeChars?_encodeChars raw
        rw [Option.some.inj same, Utf8.decodeChars?_encodeChars] at read
        exact (Option.some.inj read).symm
      obtain rfl : Text.trim raw = text := Text.trim_eq_iff.mpr (same' ▸ trims)
      rw [if_neg (mt List.isEmpty_iff.mp visible)]
  · rw [unread]
    constructor
    · exact nofun
    · rintro ⟨⟨raw, same, -⟩, -⟩
      exact absurd same (unwritten raw)

/-- So a count up to a largest one is read exactly if the variable says it. -/
theorem countUpTo?_setting (top : Nat) :
    (setting? value).bind (Text.countUpTo? top) = some n ↔ Counts value n ∧ n ≤ top := by
  rw [Option.bind_eq_some_iff]
  constructor
  · rintro ⟨text, read, counted⟩
    obtain ⟨denotes, within⟩ := Text.countUpTo?_eq_some_iff.mp counted
    exact ⟨⟨text, setting?_eq_some_iff.mp read, denotes⟩, within⟩
  · rintro ⟨⟨text, said, denotes⟩, within⟩
    exact ⟨text, setting?_eq_some_iff.mpr said, Text.countUpTo?_eq_some_iff.mpr ⟨denotes, within⟩⟩

/-! ### Settings -/

/-- A number is the count that a variable says, brought into a range, or the usual one. -/
structure Clamped (value : Option Bytes) (low high usual m : Nat) : Prop where
  /-- Counts are read up to 64 bits. -/
  given : ∀ n < UInt64.size, Counts value n → m = max low (min n high)
  otherwise : (∀ n < UInt64.size, ¬ Counts value n) → m = usual
  bounds : low ≤ m ∧ m ≤ high

/-- A port is the one that a variable says, or the usual one. -/
structure Port (value : Option Bytes) (usual port : UInt16) : Prop where
  given : ∀ n, 1 ≤ n → n ≤ 65535 → Counts value n → port.toNat = n
  otherwise : (∀ n, 1 ≤ n → n ≤ 65535 → ¬ Counts value n) → port = usual

/-- A name is the text that a variable says, or the usual one. -/
structure Name (value : Option Bytes) (usual name : String) : Prop where
  given : ∀ text, Says value text → name = String.ofList text
  otherwise : (∀ text, ¬ Says value text) → name = usual

/-- A name by which something can be found. -/
structure Proper (name : String) : Prop where
  nonempty : name ≠ ""
  bare : Text.Bare name.toList

instance (name : String) : Decidable (Proper name) :=
  decidable_of_iff (name ≠ "" ∧ Text.Bare name.toList)
    ⟨fun ⟨nonempty, bare⟩ => ⟨nonempty, bare⟩, fun ⟨nonempty, bare⟩ => ⟨nonempty, bare⟩⟩

/-- Keys are the parts of a variable in their order, or the usual ones if there is none. -/
structure Keys (value : Option Bytes) (usual keys : List String) : Prop where
  given : ∃ parts, Lists value parts ∧ keys = if parts = [] then usual else parts.map String.ofList
  nonempty : keys ≠ []
  named : ∀ key ∈ keys, Proper key ∧ ',' ∉ key.toList

/-- The words that turn a switch off, in small letters. -/
def offWords : List String :=
  ["0", "false", "no", "off"]

/-- A variable says one of the words that turn a switch off, in letters of any size. -/
def TurnsOff (value : Option Bytes) : Prop :=
  ∃ text, Says value text ∧ String.ofList (text.map Char.toLower) ∈ offWords

theorem clamped_clamped {low high usual : Nat} (least : low ≤ usual) (most : usual ≤ high) :
    Clamped value low high usual (clamped low high usual (setting? value)) := by
  have size : 0 < UInt64.size := by decide
  unfold clamped
  constructor
  case given =>
    intro n fits counts
    have read := (countUpTo?_setting (UInt64.size - 1)).mpr ⟨counts, by omega⟩
    rw [read, Option.getD_some, Nat.min_comm]
  case otherwise =>
    intro uncounted
    have unread : (setting? value).bind (Text.countUpTo? (UInt64.size - 1)) = none := by
      refine Option.eq_none_iff_forall_ne_some.mpr fun n read => ?_
      obtain ⟨counts, within⟩ := (countUpTo?_setting _).mp read
      exact uncounted n (by omega) counts
    rw [unread, Option.getD_none]
    omega
  case bounds => omega

theorem port_portSetting : Port value defaultSupervisorPort (portSetting (setting? value)) := by
  unfold portSetting
  constructor
  case given =>
    intro n positive within counts
    rw [(countUpTo?_setting 65535).mpr ⟨counts, within⟩]
    dsimp only
    rw [if_neg (by omega)]
    exact UInt16.toNat_ofNat_of_lt' (Nat.lt_succ_of_le within)
  case otherwise =>
    intro uncounted
    split
    · rename_i n read
      obtain ⟨counts, within⟩ := (countUpTo?_setting _).mp read
      split
      · rfl
      · rename_i positive
        exact absurd counts (uncounted n (by omega) within)
    · rfl

theorem name_setting (value : Option Bytes) (usual : String) :
    Name value usual (((setting? value).map String.ofList).getD usual) := by
  constructor
  case given =>
    intro text said
    rw [setting?_eq_some_iff.mpr said]
    rfl
  case otherwise =>
    intro unsaid
    have unread : setting? value = none := by
      refine Option.eq_none_iff_forall_ne_some.mpr fun text read => ?_
      exact unsaid text (setting?_eq_some_iff.mp read)
    rw [unread]
    rfl

theorem proper_setting {usual : String} (proper : Proper usual) :
    Proper (((setting? value).map String.ofList).getD usual) := by
  cases read : setting? value with
  | some text =>
      obtain ⟨⟨raw, -, trims⟩, visible⟩ := setting?_eq_some_iff.mp read
      exact ⟨by simpa using visible, by simpa using trims.bare⟩
  | none => exact proper

/-- A switch that is on as usual is off exactly if the variable turns it off. -/
theorem flagSetting_eq_false_iff : flagSetting true (setting? value) = false ↔ TurnsOff value := by
  have words : flagSetting true (setting? value) = false ↔
      String.ofList (((setting? value).getD []).map Char.toLower) ∈ offWords := by
    unfold flagSetting
    generalize String.ofList (((setting? value).getD []).map Char.toLower) = word
    -- No word turns a switch both on and off.
    have apart : word ∈ offWords → word ∉ ["1", "true", "yes", "on"] := by
      revert word
      decide
    simp only [List.contains_eq_mem, decide_eq_true_eq, offWords] at apart ⊢
    split
    · rename_i on
      exact ⟨nofun, fun off => absurd on (apart off)⟩
    · split
      · rename_i off
        exact ⟨fun _ => off, fun _ => rfl⟩
      · rename_i other
        exact ⟨nofun, fun off => absurd off other⟩
  rw [words]
  cases read : setting? value with
  | some text =>
      have said : Says value text := setting?_eq_some_iff.mp read
      constructor
      · exact fun off => ⟨text, said, off⟩
      · rintro ⟨text', said', off⟩
        obtain rfl : text = text' :=
          Option.some.inj (read.symm.trans (setting?_eq_some_iff.mpr said'))
        exact off
  | none =>
      constructor
      · intro off
        exact absurd off (by decide)
      · rintro ⟨text, said, -⟩
        rw [setting?_eq_some_iff.mpr said] at read
        cases read

/-- A comma is no blank. -/
theorem comma_visible : Text.isBlank ',' = false := by
  decide

/-- What is left of the parts of a list. -/
theorem forall₂_trims_iff {parts trimmed : List (List Char)} :
    List.Forall₂ Text.Trims parts trimmed ↔ parts.map Text.trim = trimmed := by
  have same : Text.Trims = fun part left => Text.trim part = left := by
    funext part left
    exact propext Text.trim_eq_iff.symm
  rw [same, ← List.forall₂_map_left_iff, List.forall₂_eq_eq_eq]

/-- What is left of a setting without blanks at its ends are the parts that its variable lists. -/
theorem lists_setting (value : Option Bytes) : Lists value
    (((Text.pieces [','] (by decide) ((setting? value).getD [])).map Text.trim).filter
      (! ·.isEmpty)) := by
  rw [Text.pieces_char]
  rcases written_or_unwritten value with ⟨raw, rfl⟩ | ⟨unwritten, unread⟩
  · have text : (setting? (some (Utf8.encodeChars raw))).getD [] = Text.trim raw := by
      rw [setting?_encodeChars]
      split
      · rename_i blank
        exact (List.isEmpty_iff.mp blank).symm
      · rfl
    rw [text, ← Text.map_trim_splitOn comma_visible (Text.trims_trim raw)]
    have same : (fun part : List Char => ! part.isEmpty) = fun part => decide (part ≠ []) := by
      funext part
      cases part <;> rfl
    rw [same]
    exact .parts (forall₂_trims_iff.mpr rfl)
  · rw [unread]
    exact .none unwritten

/-- A listed part is a name for a key. -/
theorem Lists.named {parts : List (List Char)} {part : List Char} (lists : Lists value parts)
    (member : part ∈ parts) : Proper (String.ofList part) ∧ ',' ∉ part := by
  cases lists with
  | @parts raw trimmed each =>
      obtain ⟨listed, visible⟩ := List.mem_filter.mp member
      rw [← forall₂_trims_iff.mp each] at listed
      obtain ⟨whole, here, rfl⟩ := List.mem_map.mp listed
      have apart : ',' ∉ whole := by
        have pieces : whole ∈ Text.pieces [','] (by decide) raw := by rwa [Text.pieces_char]
        have free := Text.not_infix_of_mem_pieces pieces
        rwa [List.singleton_infix_iff] at free
      refine ⟨⟨?_, ?_⟩, fun inside => apart (Text.mem_of_mem_trim inside)⟩
      · simpa using visible
      · simpa using Text.bare_trim whole
  | none => cases member

theorem defaultPlaceholderKeys_named : ∀ key ∈ defaultPlaceholderKeys,
    Proper key ∧ ',' ∉ key.toList := by
  decide

theorem keys_keysSetting : Keys value defaultPlaceholderKeys (keysSetting (setting? value)) := by
  obtain ⟨parts, lists, same⟩ : ∃ parts, Lists value parts ∧ keysSetting (setting? value) =
      if parts = [] then defaultPlaceholderKeys else parts.map String.ofList :=
    ⟨_, lists_setting value, if_congr List.isEmpty_iff rfl rfl⟩
  rw [same]
  refine ⟨⟨parts, lists, rfl⟩, ?nonempty, ?named⟩
  case nonempty =>
    split
    · exact nofun
    · rename_i some
      exact fun empty => some (List.map_eq_nil_iff.mp empty)
  case named =>
    split
    · exact defaultPlaceholderKeys_named
    · intro key member
      obtain ⟨part, listed, rfl⟩ := List.mem_map.mp member
      simpa using lists.named listed

/-! ### Counting questions -/

/-- The number of attempts as the wait compares it with its count: taken from 64 bits to 32. -/
def limit (poll : PollBudget) : UInt32 :=
  (UInt64.ofNat poll.attempts).toUInt32

/-- The attempts of a wait can be counted in 32 bits: nothing of their number is lost, and in every
wait for a helper, whoever answers, the count stays at `most` or below. -/
structure Countable (poll : PollBudget) (most : Nat) : Prop where
  narrowed : (limit poll).toNat = poll.attempts
  counted : ∃ room : (limit poll).toNat + 1 < UInt32.size, ∀ b : Binding,
    (Prod.fst <$> HostEnvironment.awaitCounts b poll.interval (limit poll) 0 room UInt32.zero_le) =
        HostEnvironment.await b poll.interval poll.attempts ∧
      ∀ events rested counts,
        (HostEnvironment.awaitCounts b poll.interval (limit poll) 0 room UInt32.zero_le).Course
          events (rested, counts) → ∀ count ∈ counts, count.toNat ≤ most

theorem countable_of_le {poll : PollBudget} {most : Nat} (small : poll.attempts + 1 ≤ most)
    (fits : most < UInt32.size) : Countable poll most := by
  have size : UInt32.size = 2 ^ 32 := rfl
  have narrowed : (limit poll).toNat = poll.attempts := by
    rw [limit, UInt64.toNat_toUInt32, UInt64.toNat_ofNat']
    omega
  have room : (limit poll).toNat + 1 < UInt32.size := by omega
  refine ⟨narrowed, room, fun b => ⟨?_, ?_⟩⟩
  · rw [HostEnvironment.awaitCounts_eq, HostEnvironment.awaitCounting_eq, narrowed]
    rfl
  · intro events rested counts course count member
    obtain ⟨values, bound⟩ := HostEnvironment.counts_of_course course
    have listed : count.toNat ∈ List.range' (0 : UInt32).toNat counts.length :=
      values ▸ List.mem_map_of_mem member
    have within := (List.mem_range'_1.mp listed).2
    omega

/-! ### The whole configuration -/

/-- Every setting of a configuration is what its variable says, or the usual one. -/
structure Safe (value : String → Option Bytes) (c : Config) : Prop where
  group : Name (value "DAQ_GROUP") "daqling" c.group
  proper : Proper c.group
  port : Port (value "DAQ_SUPERVISOR_PORT") 9001 c.supervisorPort
  timeout : Clamped (value "DAQ_RPC_TIMEOUT_MS") 100 600000 5000 c.rpcTimeout
  interval : Clamped (value "DAQ_ENV_POLL_INTERVAL_MS") 1 5000 50 c.poll.interval
  attempts : Clamped (value "DAQ_ENV_POLL_ATTEMPTS") 1 1000 20 c.poll.attempts
  countable : Countable c.poll 1001
  keys : Keys (value "DAQ_PLACEHOLDER_KEYS")
    ["DAQ_BUILD_DIR", "LD_LIBRARY_PATH", "DAQ_LOG_DIR", "DAQ_SCRIPT_DIR"] c.placeholderKeys
  user : Name (value "USER") "" c.user
  switch : c.useSupervisor = false ↔ TurnsOff (value "DAQ_USE_SUPERVISOR")

/-- In every environment, whatever its variables are set to, if they are set at all, each setting is
what its variable says: a group and keys without blanks at their ends, a port, and numbers in their
ranges; and it is the usual one where the variable says no such thing. -/
theorem ofEnvironment_safe (value : String → Option Bytes) : Safe value (ofEnvironment value) := by
  have attempts : Clamped (value "DAQ_ENV_POLL_ATTEMPTS") 1 1000 20
      (ofEnvironment value).poll.attempts := clamped_clamped (by decide) (by decide)
  constructor
  case group => exact name_setting _ _
  case proper => exact proper_setting (by decide)
  case port => exact port_portSetting
  case timeout => exact clamped_clamped (by decide) (by decide)
  case interval => exact clamped_clamped (by decide) (by decide)
  case attempts => exact attempts
  case countable => exact countable_of_le (by have := attempts.bounds; omega) (by decide)
  case keys => exact keys_keysSetting
  case user => exact name_setting _ _
  case switch => exact flagSetting_eq_false_iff

end Config

end RunControl
