import Mathlib.Data.Bool.AllAny
import Bendable.Settings
import Bendable.Proofs.Settings.File
import Bendable.Proofs.Settings.PlainFile
import Bendable.Proofs.Text.Upper

/-!
# Settings are validated completely and in order

Four variables are read, one after the other, each under its own rule: the log level must be the
name of one, in any case, and the integers must be integers, two of them with a least value; an
empty text is a broken rule for the log level and as good as none for the integers. The settings are
refused exactly if a rule is broken, and the first broken rule is to blame.

## Main definitions

* `Settings.rules`: the variables in order, each with what breaks its rule
* `Settings.Reads values s`: the settings `s` say what the variables stand for

## Main results

* `Settings.upper_eq_name_iff`: which texts name a log level
* `Settings.load_cases`: the settings of an environment, or the first variable that is wrong
* `Settings.load_complete_validates`: the same for an environment completed by a file, whatever
  loader reads it
-/

namespace Bendable

/-! ## Errors -/

namespace SettingsError

/-- The variable that an error is about. -/
def blamed : SettingsError → String
  | logLevel name _ => name
  | notInteger name _ => name
  | tooSmall name _ _ => name

/-- **A message starts with the variable that it is about.** -/
theorem message_blamed (e : SettingsError) :
    ∃ rest, e.message = e.blamed ++ " must be " ++ rest := by
  cases e with
  | logLevel name upper =>
    have hstart : " must be one of " = " must be " ++ "one of " := rfl
    simp only [message, blamed, hstart, String.append_assoc]
    exact ⟨_, rfl⟩
  | notInteger name text =>
    have hstart : " must be an integer, got " = " must be " ++ "an integer, got " := rfl
    simp only [message, blamed, hstart, String.append_assoc]
    exact ⟨_, rfl⟩
  | tooSmall name least n =>
    have hstart : " must be >= " = " must be " ++ ">= " := rfl
    simp only [message, blamed, hstart, String.append_assoc]
    exact ⟨_, rfl⟩

end SettingsError

namespace Settings

/-! ## Rules -/

/-- The upper-case form of a text. -/
def upper (text : String) : String := String.ofList (Upper.ofText text.toList)

/-- **A text names a log level** in upper case exactly if it spells the name in any case. -/
theorem upper_eq_name_iff (text : String) (level : LogLevel) :
    upper text = level.name ↔ Upper.Spells text.toList level.name.toList := by
  have hcap : ∀ u ∈ level.name.toList, Upper.IsCapital u := by
    cases level <;> exact List.all_iff_forall_prop.mp (by decide)
  have hexp : ∀ entry ∈ Upper.expansions, ¬entry.2.map Char.ofNat <:+: level.name.toList := by
    cases level <;> decide +kernel
  rw [← Upper.ofText_eq_iff hcap hexp, upper, ← String.toList_inj, String.toList_ofList]

/-- **A bad log level**: a text, even an empty one, that is the name of no level in any case. -/
def BadLogLevel (value : Option String) : Prop :=
  ∃ text, value = some text ∧ upper text ∉ ["CRITICAL", "DEBUG", "ERROR", "INFO", "WARNING"]

/-- **A bad integer**: a text, other than the empty one, that is no integer or one below the least
value. -/
def BadInt (least : Option Int) (value : Option String) : Prop :=
  ∃ text, value = some text ∧ text ≠ "" ∧ (Numeral.ofText? text.toList = none ∨
    ∃ n bound, Numeral.ofText? text.toList = some n ∧ least = some bound ∧ n < bound)

/-- **The rules**: the variables in the order in which they are read, each with what is bad for
it. -/
def rules : List (String × (Option String → Prop)) :=
  [(logLevelName, BadLogLevel), (hardLevelsName, BadInt (some 0)),
    (softLevelsName, BadInt (some 0)), (harnessSeedName, BadInt none)]

/-! ## What the variables say -/

/-- The log level that a variable stands for. -/
inductive ReadsLevel : Option String → LogLevel → Prop
  | unset : ReadsLevel none .warning
  | named {text : String} {level : LogLevel} (h : level.name = upper text) :
      ReadsLevel (some text) level

/-- The integer that a variable stands for: the default, if it is unset or empty. -/
inductive ReadsInt (default : Int) : Option String → Int → Prop
  | unset : ReadsInt default none default
  | empty : ReadsInt default (some "") default
  | text {text : String} {n : Int} (h : Numeral.ofText? text.toList = some n) :
      ReadsInt default (some text) n

/-- **Settings that say what the variables stand for.** -/
structure Reads (values : String → Option String) (s : Settings) : Prop where
  logLevel : ReadsLevel (values logLevelName) s.logLevel
  hardLevels : ReadsInt 1 (values hardLevelsName) s.hardLevels
  softLevels : ReadsInt 1 (values softLevelsName) s.softLevels
  harnessSeed : ReadsInt 42 (values harnessSeedName) s.harnessSeed

/-! ## Reading one variable -/

/-- **Reading a variable**: it is bad and blamed, or it is not and says what was read. -/
inductive Reading {α : Type} (name : String) (bad : Prop) (good : α → Prop) :
    Except SettingsError α → Prop
  | refused {e : SettingsError} (hb : bad) (he : e.blamed = name) : Reading name bad good (.error e)
  | read {a : α} (hb : ¬ bad) (hg : good a) : Reading name bad good (.ok a)

/-- The names of the log levels are those that the rule allows. -/
theorem ofName?_eq_none_iff (s : String) :
    LogLevel.ofName? s = none ↔ s ∉ ["CRITICAL", "DEBUG", "ERROR", "INFO", "WARNING"] := by
  have hnames : ["CRITICAL", "DEBUG", "ERROR", "INFO", "WARNING"] =
      LogLevel.all.map LogLevel.name := rfl
  rw [hnames, LogLevel.ofName?, List.find?_eq_none, List.mem_map, not_exists]
  simp only [beq_iff_eq, not_and]

theorem reading_logLevel (env : Environment) (name : String) :
    Reading name (BadLogLevel (env.get? name)) (ReadsLevel (env.get? name))
      (loadLogLevel env name .warning) := by
  unfold loadLogLevel
  cases env.get? name with
  | none => exact .read (by simp [BadLogLevel]) .unset
  | some text =>
    -- the reader looks the upper-case form up, and it is that form that the rule is about
    cases hlevel : LogLevel.ofName? (upper text) with
    | none =>
      have hbad : BadLogLevel (some text) := ⟨text, rfl, (ofName?_eq_none_iff _).mp hlevel⟩
      rw [upper] at hlevel
      simp only [hlevel]
      exact .refused hbad rfl
    | some level =>
      have hname : level.name = upper text := by
        simpa using List.find?_some hlevel
      have hgood : ¬ BadLogLevel (some text) := by
        rintro ⟨_, ⟨⟩, hbad⟩
        rw [(ofName?_eq_none_iff _).mpr hbad] at hlevel
        cases hlevel
      rw [upper] at hlevel
      simp only [hlevel]
      exact .read hgood (.named hname)

/-- Of the texts that are integers, those below the least value are bad. -/
theorem badInt_iff {least : Option Int} {text : String} {n : Int} (hempty : text ≠ "")
    (hn : Numeral.ofText? text.toList = some n) :
    BadInt least (some text) ↔ ∃ bound, least = some bound ∧ n < bound := by
  constructor
  · rintro ⟨_, ⟨⟩, -, hnone | ⟨n', bound, hn', hl, hlt⟩⟩
    · cases hn.symm.trans hnone
    · cases hn.symm.trans hn'
      exact ⟨bound, hl, hlt⟩
  · rintro ⟨bound, hl, hlt⟩
    exact ⟨text, rfl, hempty, .inr ⟨n, bound, hn, hl, hlt⟩⟩

theorem reading_int (env : Environment) (name : String) (default : Int) (least : Option Int) :
    Reading name (BadInt least (env.get? name)) (ReadsInt default (env.get? name))
      (loadInt env name default least) := by
  unfold loadInt
  cases env.get? name with
  | none => exact .read (by simp [BadInt]) .unset
  | some text =>
    by_cases hempty : text = ""
    · subst hempty
      exact .read (by simp [BadInt]) .empty
    · simp only [if_neg hempty]
      cases hn : Numeral.ofText? text.toList with
      | none => exact .refused ⟨text, rfl, hempty, .inl hn⟩ rfl
      | some n =>
        have hiff : BadInt least (some text) ↔ _ := badInt_iff hempty hn
        cases least with
        | none => exact .read (by simp [hiff]) (.text hn)
        | some bound =>
          by_cases hlt : n < bound
          · simp only [if_pos hlt]
            exact .refused (hiff.mpr ⟨bound, rfl, hlt⟩) rfl
          · simp only [if_neg hlt]
            exact .read (by simp [hiff, hlt]) (.text hn)

/-! ## Reading all variables -/

/-- A rule that is the first to be broken. -/
structure FirstBroken (values : String → Option String) (rule : String × (Option String → Prop)) :
    Prop where
  broken : rule.2 (values rule.1)
  first : ∃ earlier later, rules = earlier ++ rule :: later ∧ ∀ r ∈ earlier, ¬ r.2 (values r.1)

/-- **The first broken rule is to blame**, and if none is broken the settings are what the variables
say. -/
theorem load_cases (env : Environment) :
    (∃ e rule, load env = .error e ∧ FirstBroken env.get? rule ∧ e.blamed = rule.1) ∨
    ∃ s, load env = .ok s ∧ (∀ rule ∈ rules, ¬ rule.2 (env.get? rule.1)) ∧ Reads env.get? s := by
  -- A variable is read once all before it are good: the rules before the one that stops are kept.
  have hlevel := reading_logLevel env logLevelName
  have hhard := reading_int env hardLevelsName 1 (some 0)
  have hsoft := reading_int env softLevelsName 1 (some 0)
  have hseed := reading_int env harnessSeedName 42 none
  unfold load
  generalize loadLogLevel env logLevelName .warning = level at *
  generalize loadInt env hardLevelsName 1 (some 0) = hard at *
  generalize loadInt env softLevelsName 1 (some 0) = soft at *
  generalize loadInt env harnessSeedName 42 none = seed at *
  cases hlevel with
  | refused hb he => exact .inl ⟨_, (_, _), rfl, ⟨hb, [], _, rfl, by simp⟩, he⟩
  | read hl hgl =>
    cases hhard with
    | refused hb he => exact .inl ⟨_, (_, _), rfl, ⟨hb, [_], _, rfl, by simpa using hl⟩, he⟩
    | read hh hgh =>
      cases hsoft with
      | refused hb he =>
        exact .inl ⟨_, (_, _), rfl, ⟨hb, [_, _], _, rfl, by simpa using ⟨hl, hh⟩⟩, he⟩
      | read hs hgs =>
        cases hseed with
        | refused hb he =>
          exact .inl ⟨_, (_, _), rfl, ⟨hb, [_, _, _], _, rfl, by simpa using ⟨hl, hh, hs⟩⟩, he⟩
        | read hn hgn =>
          refine .inr ⟨_, rfl, ?_, ⟨hgl, hgh, hgs, hgn⟩⟩
          simpa [rules] using ⟨hl, hh, hs, hn⟩

/-- **Settings are validated completely and in order**, with what each variable stands for in an
environment and the plain file behind it, whatever loader reads that file: they are refused exactly
if a rule is broken, with a message about the first broken rule; otherwise they are what the
variables say. The upper-case form of a text is the name of a log level exactly if the text spells
that name in any case. Without a file the variables stand for what the environment holds. -/
theorem load_complete_validates {loader : Environment.Loader}
    (hloader : Environment.ReadsPlainLines loader) (env : Environment) {file : Option String}
    {entries : List (String × String)} (hf : Environment.FileHolds file entries) :
    let values := Environment.merged env entries
    ((∃ e, load (env.complete loader file) = .error e) ↔
      ∃ rule ∈ rules, rule.2 (values rule.1)) ∧
    (∀ e, load (env.complete loader file) = .error e → ∃ rule rest, FirstBroken values rule ∧
      e.message = rule.1 ++ " must be " ++ rest) ∧
    (∀ s, load (env.complete loader file) = .ok s → Reads values s) ∧
    ∀ (text : String) (level : LogLevel),
      upper text = level.name ↔ Upper.Spells text.toList level.name.toList := by
  intro values
  have hvalues : (env.complete loader file).get? = values :=
    Environment.get?_complete hloader env hf
  rw [← hvalues]
  rcases load_cases (env.complete loader file) with ⟨e, rule, hl, hb, he⟩ | ⟨s, hl, hg, hs⟩
  · rw [hl]
    obtain ⟨rest, hmessage⟩ := e.message_blamed
    obtain ⟨earlier, later, hrules, -⟩ := hb.first
    refine ⟨⟨fun _ => ⟨rule, ?_, hb.broken⟩, fun _ => ⟨e, rfl⟩⟩, ?_, nofun, upper_eq_name_iff⟩
    · rw [hrules]
      exact List.mem_append_right _ List.mem_cons_self
    · rintro _ ⟨⟩
      exact ⟨rule, rest, hb, by rw [hmessage, he]⟩
  · rw [hl]
    refine ⟨⟨nofun, ?_⟩, nofun, ?_, upper_eq_name_iff⟩
    · rintro ⟨rule, hr, hb⟩
      exact absurd hb (hg rule hr)
    · rintro _ ⟨⟩
      exact hs

/-- A file with two bad texts, one of them hidden by the environment: the other is blamed. The file
is read by the loader of plain files. -/
theorem load_complete_blames_file :
    Environment.ReadsPlainLines PlainFile.load ∧
    Environment.FileHolds (some "SCORE_KERNEL_HARD_LEVELS=x\nSCORE_KERNEL_LOG_LEVEL=loud\n")
      [(hardLevelsName, "x"), (logLevelName, "loud")] ∧
    ∃ e rest, load (Environment.complete PlainFile.load [(hardLevelsName, "2")]
        (some "SCORE_KERNEL_HARD_LEVELS=x\nSCORE_KERNEL_LOG_LEVEL=loud\n")) = .error e ∧
      e.message = logLevelName ++ " must be " ++ rest := by
  -- both names and both texts are plain, and so is the blank line at the end
  have hhard : Environment.IsPlainName hardLevelsName.toList :=
    ⟨by decide, List.all_iff_forall_prop.mp (by decide), by decide⟩
  have hlevel : Environment.IsPlainName logLevelName.toList :=
    ⟨by decide, List.all_iff_forall_prop.mp (by decide), by decide⟩
  have hx : Environment.IsPlainText "x".toList :=
    Environment.isPlainText_of_chars (List.all_iff_forall_prop.mp (by decide))
  have hloud : Environment.IsPlainText "loud".toList :=
    Environment.isPlainText_of_chars (List.all_iff_forall_prop.mp (by decide))
  have hend : Environment.EndsLine ['\n'] := List.mem_cons_self
  have hblank : Environment.PlainLine [] none := .blank nofun
  have hfile : Environment.FileHolds
      (some "SCORE_KERNEL_HARD_LEVELS=x\nSCORE_KERNEL_LOG_LEVEL=loud\n")
      [(hardLevelsName, "x"), (logLevelName, "loud")] :=
    .plain (.mk (.snoc (.snoc .nil (Environment.plainLine_assignment hhard hx) hend)
      (Environment.plainLine_assignment hlevel hloud) hend) hblank)
  have hbad : BadLogLevel (Environment.merged [(hardLevelsName, "2")]
      [(hardLevelsName, "x"), (logLevelName, "loud")] logLevelName) :=
    ⟨"loud", by decide, by decide⟩
  obtain ⟨hiff, hfirst, -⟩ :=
    load_complete_validates PlainFile.readsPlainLines_load [(hardLevelsName, "2")] hfile
  obtain ⟨e, he⟩ := hiff.mpr ⟨(logLevelName, BadLogLevel), List.mem_cons_self, hbad⟩
  obtain ⟨rule, rest, ⟨-, earlier, later, hrules, hgood⟩, hmessage⟩ := hfirst e he
  refine ⟨PlainFile.readsPlainLines_load, hfile, e, rest, he, ?_⟩
  cases earlier with
  | nil =>
    obtain ⟨rfl, -⟩ := List.cons.inj hrules
    exact hmessage
  | cons first earlier =>
    obtain ⟨rfl, -⟩ := List.cons.inj hrules
    exact absurd hbad (hgood _ List.mem_cons_self)

end Settings

end Bendable
