import Mathlib.Data.List.Forall2
import StepLedger.CommandLine.Session
import StepLedger.Proofs.Decimal
import StepLedger.Proofs.Except
import StepLedger.Proofs.Text.Split

/-!
# What can be typed

Whatever the program can be told, it can be told by a line that is typed: each option with its value
behind an equals sign, and the positional arguments behind a lone `--` (`Arguments.ofList_typed`). A
value that does not begin with a hyphen may stand alone as well (`Level.scanAll_plain`).
-/

namespace StepLedger

/-! ## Numbers -/

namespace Decimal

theorem toInt?_digits {digits : List Char} (hne : digits ≠ [])
    (h : ∀ c ∈ digits, c.isDigit = true) : toInt? digits = some (toNat digits : Int) := by
  have hunsigned : toInt?.unsigned digits = true := by
    rw [toInt?.unsigned, Bool.and_eq_true, Bool.not_eq_true', List.isEmpty_eq_false_iff]
    exact ⟨hne, List.all_eq_true.2 h⟩
  unfold toInt?
  split
  · exact absurd rfl hne
  · exact absurd (h '-' List.mem_cons_self) (by decide)
  · exact absurd (h '+' List.mem_cons_self) (by decide)
  · rw [if_pos hunsigned]

/-- A number is read as it is written. -/
theorem toInt?_ofInt (n : Int) : toInt? (ofInt n) = some n := by
  have hdigits := toInt?_digits (ofNat_ne_nil n.natAbs) fun _ => isDigit_ofNat
  rw [toNat_ofNat] at hdigits
  rw [ofInt]
  split
  · next hneg =>
    have hunsigned : toInt?.unsigned (ofNat n.natAbs) = true := by
      rw [toInt?.unsigned, Bool.and_eq_true, Bool.not_eq_true', List.isEmpty_eq_false_iff]
      exact ⟨ofNat_ne_nil _, List.all_eq_true.2 fun _ => isDigit_ofNat⟩
    rw [toInt?, if_pos hunsigned, toNat_ofNat]
    exact congrArg some (by omega)
  · next hpos => rw [hdigits]; exact congrArg some (by omega)

end Decimal

namespace CommandLine

theorem toInt64?_shownInt (n : Int64) : toInt64? (shownInt n.toInt) = some n := by
  have hlower := n.le_toInt
  have hupper := n.toInt_lt
  rw [toInt64?, intWithin?, shownInt, String.toList_ofList, Decimal.toInt?_ofInt, Option.bind_some,
    if_pos (by omega), Option.map_some, Int64.ofInt_toInt]

theorem toUInt32?_shownInt (n : UInt32) : toUInt32? (shownInt n.toNat) = some n := by
  have hupper := n.toNat_lt
  rw [toUInt32?, intWithin?, shownInt, String.toList_ofList, Decimal.toInt?_ofInt, Option.bind_some,
    if_pos (by omega), Option.map_some, Int.toNat_natCast, UInt32.ofNat_toNat]

/-! ## Arguments -/

/-- The argument is no option. -/
def Plain (argument : String) : Prop := argument.toList.head? ≠ some '-'

instance (argument : String) : Decidable (Plain argument) :=
  inferInstanceAs (Decidable (argument.toList.head? ≠ some '-'))

/-- An option with its value. -/
def attached (name value : String) : String := "--" ++ name ++ "=" ++ value

theorem toList_attached (name value : String) :
    (attached name value).toList = '-' :: '-' :: (name.toList ++ '=' :: value.toList) := by
  simp [attached]

theorem plain_shownInt {n : Int} (h : 0 ≤ n) : Plain (shownInt n) := by
  rw [Plain, shownInt, String.toList_ofList, Decimal.ofInt, if_neg (by omega)]
  intro hminus
  exact absurd (Decimal.isDigit_ofNat (List.mem_of_mem_head? hminus)) (by decide)

namespace Level

variable {level : Level} {scan : Scan} {options : List (String × String)} {name value : String}
  {kind : Kind} {values rest : List String}

/-! ## Options -/

section Option

variable (hname : '=' ∉ name.toList) (hoption : Entries.find? name level.options = some kind)
  (haccepts : kind.accepts value = true)
include hoption haccepts

theorem accept_eq_ok (hnew : Entries.find? name scan.options = none) : level.accept scan name value =
    .ok { scan with options := scan.options ++ [(name, value)], pending := .none } := by
  rw [accept, hoption, hnew]
  exact if_pos haccepts

include hname

/-- An option with its value is taken at once. -/
theorem step_attached (hpending : scan.pending = .none) (htrailing : scan.trailing = false)
    (hnew : Entries.find? name scan.options = none) : level.step scan (attached name value) =
      .ok { scan with options := scan.options ++ [(name, value)], pending := .none } := by
  obtain ⟨c, text, htext⟩ := List.exists_cons_of_ne_nil
    (show name.toList ++ '=' :: value.toList ≠ [] by simp)
  have hcut : Text.cut? '=' (c :: text) = some (name.toList, value.toList) :=
    Text.cut?_eq_some_iff.2 ⟨hname, htext.symm⟩
  have hsettle : level.settle scan = .ok scan := by rw [settle, hpending]
  rw [← accept_eq_ok hoption haccepts hnew, step, htrailing, if_neg Bool.false_ne_true,
    toList_attached, htext]
  show level.long scan (c :: text) = _
  rw [long, hcut]
  dsimp only
  rw [String.ofList_toList, String.ofList_toList, hoption, if_pos Option.isSome_some, hsettle,
    Except.ok_bind]

theorem scan_attached (hcommands : ∀ command ∈ level.commands, Plain command)
    (hpending : scan.pending = .none) (htrailing : scan.trailing = false)
    (hnew : Entries.find? name scan.options = none) :
    level.scan scan (attached name value :: rest) =
      level.scan { scan with options := scan.options ++ [(name, value)], pending := .none } rest := by
  have hno : level.commands.contains (attached name value) = false := by
    rw [List.contains_eq_mem, decide_eq_false_iff_not]
    intro hmem
    exact hcommands _ hmem (by rw [toList_attached]; rfl)
  rw [Level.scan, hno, Bool.and_false, if_neg Bool.false_ne_true,
    step_attached hname hoption haccepts hpending htrailing hnew]
  rfl

end Option

/-! ## Positional arguments -/

/-- Behind a lone `--` every value is positional. -/
theorem scan_trailing {taken : List String} (hcommands : level.commands = [])
    (htrailing : scan.trailing = true) (hsettle : level.settle scan = .ok ⟨options, taken, .none, true⟩)
    (h : List.Forall₂ (fun kind value => Kind.accepts kind value = true)
      (level.positionals.drop taken.length) values) :
    ∃ scanned, level.scan scan values = .ok (scanned, none) ∧
      level.settle scanned = .ok ⟨options, taken ++ values, .none, true⟩ := by
  induction values generalizing scan taken with
  | nil => exact ⟨scan, rfl, by rw [hsettle, List.append_nil]⟩
  | cons value values ih =>
    obtain ⟨kind, kinds, haccepts, hrest, hdrop⟩ := List.forall₂_cons_right_iff.1 h
    have hkind : level.positionals[taken.length]? = some kind := by
      rw [← List.head?_drop, hdrop, List.head?_cons]
    have hstep : level.step scan value = .ok ⟨options, taken, .positional value, true⟩ := by
      rw [step, if_pos htrailing, positional, hsettle, Except.ok_bind,
        if_pos (List.getElem?_eq_some_iff.1 hkind).1]
      rfl
    have hnext : level.settle ⟨options, taken, .positional value, true⟩ =
        .ok ⟨options, taken ++ [value], .none, true⟩ := by
      rw [settle]
      dsimp only
      rw [hkind]
      exact if_pos haccepts
    have htail : level.positionals.drop (taken ++ [value]).length = kinds := by
      rw [List.length_append, List.length_singleton, ← List.drop_drop, hdrop, List.drop_one,
        List.tail_cons]
    obtain ⟨scanned, hscan, hsettled⟩ := ih rfl hnext (htail ▸ hrest)
    refine ⟨scanned, ?_, by rw [hsettled, List.append_assoc, List.singleton_append]⟩
    rw [Level.scan, hcommands, List.contains_nil, Bool.and_false, if_neg Bool.false_ne_true, hstep]
    exact hscan

/-- One option and the positional arguments behind a lone `--`. -/
theorem scanAll_attached (hcommands : level.commands = []) (hname : '=' ∉ name.toList)
    (hoption : Entries.find? name level.options = some kind) (haccepts : kind.accepts value = true)
    (h : List.Forall₂ (fun kind value => Kind.accepts kind value = true) level.positionals values) :
    level.scanAll (attached name value :: "--" :: values) =
      .ok ⟨[(name, value)], values, .none, true⟩ := by
  let begun : Scan := ⟨[(name, value)], [], .none, true⟩
  have hbegun : level.settle begun = .ok ⟨[(name, value)], [], .none, true⟩ := rfl
  obtain ⟨scanned, hscan, hsettle⟩ := scan_trailing hcommands rfl hbegun h
  have hall : level.scan start (attached name value :: "--" :: values) = .ok (scanned, none) := by
    rw [scan_attached hname hoption haccepts (by simp [hcommands]) rfl rfl rfl, ← hscan, Level.scan,
      hcommands]
    rfl
  rw [scanAll, hall, Except.ok_bind]
  dsimp only
  rw [hsettle, Except.ok_bind]
  exact if_pos h.length_eq.symm

/-! ## Values that stand alone -/

/-- What is no option is the value of an option that still needs one, or else positional. -/
theorem step_plain {argument : String} (hargument : Plain argument) (htrailing : scan.trailing = false) :
    level.step scan argument = match scan.pending with
      | .option name none => .ok { scan with pending := .option name (some argument) }
      | _ => level.positional scan argument := by
  rw [step, htrailing, if_neg Bool.false_ne_true]
  split
  · next htext => exact absurd (by rw [htext]; rfl) hargument
  · next htext => exact absurd (by rw [htext]; rfl) hargument
  · next htext => exact absurd (by rw [htext]; rfl) hargument
  · rfl

/-- An option without its value waits for it. -/
theorem step_option (hne : name ≠ "") (hname : '=' ∉ name.toList)
    (hoption : Entries.find? name level.options = some kind) (htrailing : scan.trailing = false)
    {settled : Scan} (hsettle : level.settle scan = .ok settled) :
    level.step scan ("--" ++ name) = .ok { settled with pending := .option name none } := by
  obtain ⟨c, text, htext⟩ := List.exists_cons_of_ne_nil (mt String.toList_eq_nil_iff.1 hne)
  have hargument : ("--" ++ name).toList = '-' :: '-' :: c :: text := by
    rw [String.toList_append, htext]
    rfl
  have hcut : Text.cut? '=' (c :: text) = none := Text.cut?_eq_none_iff.2 (htext ▸ hname)
  rw [step, htrailing, if_neg Bool.false_ne_true, hargument]
  show level.long scan (c :: text) = _
  rw [long, hcut]
  dsimp only
  rw [← htext, String.ofList_toList, hoption, if_pos Option.isSome_some, hsettle, Except.ok_bind]
  rfl

/-- One positional argument and one option, if their values may stand alone. -/
theorem scanAll_plain (hcommands : level.commands = []) (hne : name ≠ "") (hname : '=' ∉ name.toList)
    (hoption : Entries.find? name level.options = some kind) (haccepts : kind.accepts value = true)
    {kind' : Kind} (hpositionals : level.positionals = [kind']) {argument : String}
    (haccepts' : kind'.accepts argument = true) (hargument : Plain argument) (hvalue : Plain value) :
    level.scanAll [argument, "--" ++ name, value] = .ok ⟨[(name, value)], [argument], .none, false⟩ := by
  have hnone : ∀ text scan, (commandMayFollow scan && level.commands.contains text) = false := by
    intro text scan
    rw [hcommands, List.contains_nil, Bool.and_false]
  have hfirst : level.step start argument = .ok ⟨[], [], .positional argument, false⟩ := by
    rw [step_plain hargument rfl]
    show level.positional start argument = _
    rw [positional, show level.settle start = .ok start from rfl, Except.ok_bind, hpositionals]
    rfl
  have hsettle : level.settle ⟨[], [], .positional argument, false⟩ =
      .ok ⟨[], [argument], .none, false⟩ := by
    rw [settle]
    dsimp only
    rw [hpositionals]
    exact if_pos haccepts'
  have hsecond := step_option hne hname hoption rfl hsettle
  have hthird : level.step ⟨[], [argument], .option name none, false⟩ value =
      .ok ⟨[], [argument], .option name (some value), false⟩ := step_plain hvalue rfl
  have hlast : level.settle ⟨[], [argument], .option name (some value), false⟩ =
      .ok ⟨[(name, value)], [argument], .none, false⟩ := accept_eq_ok hoption haccepts rfl
  have hall : level.scan start [argument, "--" ++ name, value] =
      .ok (⟨[], [argument], .option name (some value), false⟩, none) := by
    rw [Level.scan, hnone, if_neg Bool.false_ne_true, hfirst, Except.ok_bind, Level.scan, hnone,
      if_neg Bool.false_ne_true, hsecond, Except.ok_bind, Level.scan, hnone,
      if_neg Bool.false_ne_true, hthird, Except.ok_bind, Level.scan]
  rw [scanAll, hall, Except.ok_bind]
  dsimp only
  rw [hlast, Except.ok_bind, hpositionals]
  rfl

end Level

/-! ## Commands -/

namespace Scan

variable {α : Type} {scan : Scan} {decode : String → Option α} {text : String} {a : α}

theorem optionOr_eq_ok {name : String} (hgiven : scan.option? name = some text)
    (hdecode : decode text = some a) (otherwise : α) :
    scan.optionOr name decode otherwise = .ok a := by
  rw [optionOr, hgiven]
  dsimp only
  rw [hdecode]
  rfl

theorem option_eq_ok {name : String} (hgiven : scan.option? name = some text)
    (hdecode : decode text = some a) : scan.option name decode = .ok a := by
  rw [option, hgiven, Option.bind_some, hdecode]
  rfl

theorem positional_eq_ok {index : Nat} (hgiven : scan.positionals[index]? = some text)
    (hdecode : decode text = some a) : scan.positional index decode = .ok a := by
  rw [positional, hgiven, Option.bind_some, hdecode]
  rfl

end Scan

namespace Command

section Scanned

variable {arguments : List String} {scan : Scan} {name : String}

/-- What is typed for a seed. -/
theorem ofList_seed_of_scan {initial : Int64} (h : (level "seed").scanAll arguments = .ok scan)
    (hpositionals : scan.positionals = [name])
    (hoptions : scan.options = [("initial", shownInt initial.toInt)]) :
    ofList "seed" arguments = .ok (.seed name initial none) := by
  have hname : scan.positional 0 some = .ok name :=
    Scan.positional_eq_ok (by rw [hpositionals]; rfl) rfl
  have hinitial : scan.optionOr "initial" toInt64? 0 = .ok initial :=
    Scan.optionOr_eq_ok (by rw [Scan.option?, hoptions]; rfl) (toInt64?_shownInt initial) 0
  have hnote : scan.option? "note" = none := by
    rw [Scan.option?, hoptions]
    rfl
  rw [ofList, h, Except.ok_bind]
  show (scan.positional 0 some >>= fun name => scan.optionOr "initial" toInt64? 0 >>= fun initial =>
    Except.ok (Command.seed name initial (scan.option? "note"))) = _
  rw [hname, Except.ok_bind, hinitial, Except.ok_bind, hnote]

/-- What is typed for values. -/
theorem ofList_next_of_scan {count : UInt32} (h : (level "next").scanAll arguments = .ok scan)
    (hpositionals : scan.positionals = [name])
    (hoptions : scan.options = [("count", shownInt count.toNat)]) :
    ofList "next" arguments = .ok (.next name count) := by
  have hname : scan.positional 0 some = .ok name :=
    Scan.positional_eq_ok (by rw [hpositionals]; rfl) rfl
  have hcount : scan.optionOr "count" toUInt32? 1 = .ok count :=
    Scan.optionOr_eq_ok (by rw [Scan.option?, hoptions]; rfl) (toUInt32?_shownInt count) 1
  rw [ofList, h, Except.ok_bind]
  show (scan.positional 0 some >>= fun name => scan.optionOr "count" toUInt32? 1 >>= fun count =>
    Except.ok (Command.next name count)) = _
  rw [hname, Except.ok_bind, hcount, Except.ok_bind]

end Scanned

section

variable (name : String)

theorem accepts_int64 (n : Int64) : Kind.int64.accepts (shownInt n.toInt) = true := by
  rw [Kind.accepts, toInt64?_shownInt]
  rfl

theorem accepts_uint32 (n : UInt32) : Kind.uint32.accepts (shownInt n.toNat) = true := by
  rw [Kind.accepts, toUInt32?_shownInt]
  rfl

theorem ofList_seed (initial : Int64) :
    ofList "seed" [attached "initial" (shownInt initial.toInt), "--", name] =
      .ok (.seed name initial none) :=
  ofList_seed_of_scan (Level.scanAll_attached rfl (by decide) rfl (accepts_int64 initial)
    (.cons rfl .nil)) rfl rfl

theorem ofList_next (count : UInt32) :
    ofList "next" [attached "count" (shownInt count.toNat), "--", name] = .ok (.next name count) :=
  ofList_next_of_scan (Level.scanAll_attached rfl (by decide) rfl (accepts_uint32 count)
    (.cons rfl .nil)) rfl rfl

variable {name} (hname : Plain name)
include hname

theorem ofList_seed_plain {initial : Int64} (hinitial : 0 ≤ initial.toInt) :
    ofList "seed" [name, "--initial", shownInt initial.toInt] = .ok (.seed name initial none) := by
  have hscan : (level "seed").scanAll [name, "--" ++ "initial", shownInt initial.toInt] = _ :=
    Level.scanAll_plain rfl (by decide) (by decide) rfl (accepts_int64 initial) rfl rfl hname
      (plain_shownInt hinitial)
  exact ofList_seed_of_scan hscan rfl rfl

theorem ofList_next_plain (count : UInt32) :
    ofList "next" [name, "--count", shownInt count.toNat] = .ok (.next name count) := by
  have hscan : (level "next").scanAll [name, "--" ++ "count", shownInt count.toNat] = _ :=
    Level.scanAll_plain rfl (by decide) (by decide) rfl (accepts_uint32 count) rfl rfl hname
      (plain_shownInt (Int.natCast_nonneg _))
  exact ofList_next_of_scan hscan rfl rfl

end

/-- What is typed to see a step. -/
theorem ofList_show (job step jobInstance : Int64) :
    ofList "show" [attached "instance" (shownInt jobInstance.toInt), "--", shownInt job.toInt,
      shownInt step.toInt] = .ok (.print job step jobInstance) := by
  let scan : Scan := ⟨[("instance", shownInt jobInstance.toInt)],
    [shownInt job.toInt, shownInt step.toInt], .none, true⟩
  have hscan : (level "show").scanAll _ = .ok scan :=
    Level.scanAll_attached rfl (by decide) rfl (accepts_int64 jobInstance)
      (.cons (accepts_int64 job) (.cons (accepts_int64 step) .nil))
  have hjob : scan.positional 0 toInt64? = .ok job :=
    Scan.positional_eq_ok rfl (toInt64?_shownInt job)
  have hstep : scan.positional 1 toInt64? = .ok step :=
    Scan.positional_eq_ok rfl (toInt64?_shownInt step)
  have hinstance : scan.option "instance" toInt64? = .ok jobInstance :=
    Scan.option_eq_ok rfl (toInt64?_shownInt jobInstance)
  rw [ofList, hscan, Except.ok_bind]
  show (scan.positional 0 toInt64? >>= fun job => scan.positional 1 toInt64? >>= fun step =>
    scan.option "instance" toInt64? >>= fun jobInstance =>
      Except.ok (Command.print job step jobInstance)) = _
  rw [hjob, Except.ok_bind, hstep, Except.ok_bind, hinstance, Except.ok_bind]

end Command

/-! ## The program -/

namespace Arguments

/-- The whole line for a command. -/
def typed (directory collection : String) (strategy : Sequence.Strategy) (command : List String) :
    List String :=
  attached "data-dir" directory :: attached "sequence-collection" collection ::
    attached "strategy" strategy.name :: command

theorem ofList_typed {directory name : String} {arguments : List String} {command : Command}
    (hdirectory : directory ≠ "") (hname : name ∈ Command.names)
    (hcommand : Command.ofList name arguments = .ok command) (collection : String)
    (strategy : Sequence.Strategy) :
    ofList (typed directory collection strategy (name :: arguments)) =
      .ok ⟨directory, collection, strategy, command⟩ := by
  let scan : Scan := ⟨[("data-dir", directory), ("sequence-collection", collection),
    ("strategy", strategy.name)], [], .none, false⟩
  have hcommands : ∀ command ∈ level.commands, Plain command := by decide
  have hscan : level.scan Level.start (typed directory collection strategy (name :: arguments)) =
      .ok (scan, some (name, arguments)) := by
    have hpath : Kind.path.accepts directory = true := by
      rw [Kind.accepts, Bool.not_eq_true', String.isEmpty_eq_false_iff]
      exact hdirectory
    have hstrategy : Kind.strategy.accepts strategy.name = true := by
      rw [Kind.accepts, Sequence.Strategy.ofName_name]
      rfl
    have hcommand : level.commands.contains name = true :=
      List.contains_iff_mem.2 (List.mem_cons_of_mem _ hname)
    rw [typed, Level.scan_attached (by decide) rfl hpath hcommands rfl rfl rfl,
      Level.scan_attached (by decide) rfl rfl hcommands rfl rfl rfl,
      Level.scan_attached (by decide) rfl hstrategy hcommands rfl rfl rfl, Level.scan, hcommand]
    rfl
  have hdirectory : scan.optionOr "data-dir" some defaultDirectory = .ok directory :=
    Scan.optionOr_eq_ok rfl rfl _
  have hcollection : scan.optionOr "sequence-collection" some Config.defaultSequenceCollection =
      .ok collection := Scan.optionOr_eq_ok rfl rfl _
  have hstrategy : scan.optionOr "strategy" (fun name => (Sequence.Strategy.ofName name).toOption)
      .atomicIncrement = .ok strategy :=
    Scan.optionOr_eq_ok rfl (by rw [Sequence.Strategy.ofName_name]; rfl) _
  rw [ofList, hscan, Except.ok_bind]
  dsimp only
  split
  · next hnone => cases hnone
  · next hhelp =>
    cases hhelp
    exact absurd hname (by decide)
  · next hsome =>
    cases hsome
    rw [hcommand, Except.ok_bind, show level.settle scan = .ok scan from rfl, Except.ok_bind,
      hdirectory, Except.ok_bind, hcollection, Except.ok_bind, hstrategy]
    rfl

end Arguments

end CommandLine

end StepLedger
