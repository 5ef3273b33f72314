import Mathlib.Tactic.ByContra
import StepLedger.Config
import StepLedger.Proofs.Except
import StepLedger.Proofs.Text.Split

/-!
# Configurations as URLs

A URL says nothing but a database, a strategy and a directory, and a name only without the marks that
end it (`Config.Sayable`). What is read from a URL can be said (`sayable_of_ofUrl`), and what can be
said is read back as it was (`Sayable.ofUrl_toUrl`). So a URL may be written anew: reading that gives
what was read before (`ofUrl_toUrl_of_ofUrl`).

Names stand in a URL as they are, and `Config.validate` admits all of them. A configuration whose
database has a question mark or whose directory has an ampersand can be written as the URL of another
one (`toUrl_says_another`). Otherwise its URL is read as the configuration itself or refused
(`ofUrl_toUrl_own`).
-/

namespace StepLedger.Config

variable {c c' : Config} {url : String}

/-! ## The parts of a URL -/

theorem after?_eq_some_iff {beginning text rest : List Char} :
    after? beginning text = some rest ↔ text = beginning ++ rest := by
  induction beginning generalizing text with
  | nil => simp [after?, eq_comm]
  | cons c beginning ih =>
    cases text with
    | nil => simp [after?]
    | cons d text =>
      rw [after?, List.cons_append, List.cons.injEq]
      split
      · next heq => simp [heq, ih]
      · next hne => simp [Ne.symm hne]

/-- The configuration of a database and of parameters. -/
def ofParts (database : List Char) (parameters : List (List Char)) : Except ConfigError Config :=
  if database.isEmpty ∨ database.contains '/' then .error .databaseName
  else parameters.foldlM setParameter (ofDatabase (String.ofList database))

theorem ofUrl_of_parts {database query : List Char} (hmark : '?' ∉ database)
    (h : url.toList = urlScheme.toList ++ (database ++ '?' :: query)) :
    ofUrl url = ofParts database (Text.split '&' query) := by
  rw [ofUrl, after?_eq_some_iff.2 h]
  simp only [Text.cut?_eq_some_iff.2 ⟨hmark, rfl⟩]
  rfl

/-- Whatever is read has a database without a question mark and parameters without ampersands. -/
theorem exists_parts_of_ofUrl (h : ofUrl url = .ok c) : ∃ database parameters,
    '?' ∉ database ∧ (∀ pair ∈ parameters, '&' ∉ pair) ∧ ofParts database parameters = .ok c := by
  rw [ofUrl] at h
  split at h
  · cases h
  · next text _ =>
    cases hcut : Text.cut? '?' text with
    | none =>
      rw [hcut] at h
      exact ⟨text, [], Text.cut?_eq_none_iff.1 hcut, nofun, h⟩
    | some parts =>
      rw [hcut] at h
      exact ⟨parts.1, _, (Text.cut?_eq_some_iff.1 hcut).1,
        fun pair hpair => Text.not_mem_of_mem_split hpair, h⟩

/-- A parameter as it stands in a URL. -/
def pair (name value : String) : List Char := name.toList ++ '=' :: value.toList

theorem cut?_pair {name : String} (h : '=' ∉ name.toList) (value : String) :
    Text.cut? '=' (pair name value) = some (name.toList, value.toList) :=
  Text.cut?_eq_some_iff.2 ⟨h, rfl⟩

theorem setParameter_path (c : Config) {directory : String} (h : directory ≠ "") :
    setParameter c (pair "path" directory) = .ok { c with dataDirectory := some directory } := by
  rw [setParameter, cut?_pair (by decide)]
  dsimp only
  rw [if_pos ⟨rfl, fun hnil => h (String.toList_eq_nil_iff.1 hnil)⟩, String.ofList_toList]

theorem setParameter_strategy (c : Config) (name : String) :
    setParameter c (pair "strategy" name) =
      (Sequence.Strategy.ofName name).map fun strategy => { c with strategy } := by
  rw [setParameter, cut?_pair (by decide)]
  dsimp only
  rw [if_neg fun h => absurd h.1 (by decide), if_pos rfl, String.ofList_toList]
  cases Sequence.Strategy.ofName name <;> rfl

/-- A parameter that is accepted is a directory or the name of a strategy. -/
theorem setParameter_eq_ok {text : List Char} (h : setParameter c text = .ok c') :
    (∃ directory, text = pair "path" directory ∧ directory ≠ "" ∧
      c' = { c with dataDirectory := some directory }) ∨
    ∃ name strategy, text = pair "strategy" name ∧ c' = { c with strategy } := by
  rw [setParameter] at h
  split at h
  · next name value hcut =>
    obtain ⟨-, rfl⟩ := Text.cut?_eq_some_iff.1 hcut
    split at h
    · next hname =>
      cases h
      refine .inl ⟨String.ofList value, ?_, fun hempty => hname.2 ?_, rfl⟩
      · rw [pair, String.toList_ofList (l := value), hname.1]
      · exact String.ofList_injective hempty
    · split at h
      · next hname =>
        obtain ⟨strategy, -, h⟩ := Except.bind_eq_ok.1 h
        cases h
        exact .inr ⟨String.ofList value, strategy, by
          rw [pair, String.toList_ofList (l := value), hname], rfl⟩
      · cases h
  · cases h

/-! ## What a URL can say -/

/-- The settings that have no place in a URL are the usual ones. -/
def Usual (c : Config) : Prop :=
  c = { ofDatabase c.database with strategy := c.strategy, dataDirectory := c.dataDirectory }

/-- A configuration that a URL can say. -/
structure Sayable (c : Config) : Prop where
  usual : c.Usual
  /-- Neither a slash nor a question mark stands in the database. -/
  database : c.database ≠ "" ∧ '/' ∉ c.database.toList ∧ '?' ∉ c.database.toList
  /-- No ampersand stands in the directory. -/
  directory : ∀ directory, c.dataDirectory = some directory →
    directory ≠ "" ∧ '&' ∉ directory.toList

theorem sayable_ofDatabase {database : String} (hne : database ≠ "") (hslash : '/' ∉ database.toList)
    (hmark : '?' ∉ database.toList) : (ofDatabase database).Sayable :=
  ⟨rfl, ⟨hne, hslash, hmark⟩, nofun⟩

theorem Sayable.setParameter (h : c.Sayable) {text : List Char} (htext : '&' ∉ text)
    (hset : setParameter c text = .ok c') : c'.Sayable := by
  obtain ⟨husual, hdatabase, hdirectory⟩ := h
  obtain ⟨directory, rfl, hne, rfl⟩ | ⟨name, strategy, -, rfl⟩ := setParameter_eq_ok hset
  · refine ⟨?_, hdatabase, fun other hother => ?_⟩
    · rw [Usual] at husual ⊢
      rw [husual]
      rfl
    · cases hother
      exact ⟨hne, fun hmem => htext (List.mem_append_right _ (List.mem_cons_of_mem _ hmem))⟩
  · refine ⟨?_, hdatabase, hdirectory⟩
    rw [Usual] at husual ⊢
    rw [husual]
    rfl

theorem sayable_of_ofParts {database : List Char} {parameters : List (List Char)}
    (hmark : '?' ∉ database) (hparameters : ∀ text ∈ parameters, '&' ∉ text)
    (h : ofParts database parameters = .ok c) : c.Sayable := by
  rw [ofParts] at h
  split at h
  · cases h
  · next hname =>
    rw [not_or] at hname
    have hstart : (ofDatabase (String.ofList database)).Sayable := by
      refine sayable_ofDatabase (fun hempty => hname.1 ?_) ?_ (by rwa [String.toList_ofList])
      · rw [show database = [] from String.ofList_injective hempty]
        rfl
      · simpa using hname.2
    exact Except.foldlM_induction h hstart fun text htext _ _ hc hset =>
      hc.setParameter (hparameters text htext) hset

/-- What is read from a URL can be said by one. -/
theorem sayable_of_ofUrl (h : ofUrl url = .ok c) : c.Sayable := by
  obtain ⟨database, parameters, hmark, hparameters, hread⟩ := exists_parts_of_ofUrl h
  exact sayable_of_ofParts hmark hparameters hread

/-! ## Writing and reading back -/

/-- The parameters that are written. -/
def parameters (c : Config) : List (List Char) :=
  pair "strategy" c.strategy.name :: c.dataDirectory.toList.map (pair "path")

theorem toList_toUrl (c : Config) : c.toUrl.toList =
    urlScheme.toList ++ (c.database.toList ++ '?' :: List.intercalate ['&'] c.parameters) := by
  have hstrategy : "?strategy=".toList = '?' :: ("strategy".toList ++ ['=']) := by decide +kernel
  have hpath : "&path=".toList = '&' :: ("path".toList ++ ['=']) := by decide +kernel
  rw [toUrl, parameters, pair]
  cases c.dataDirectory with
  | none => simp [List.intercalate, hstrategy]
  | some directory => simp [List.intercalate, pair, hstrategy, hpath]

/-- Without a question mark in the database and an ampersand in the directory, the parts that are read
are those that were written. -/
theorem ofUrl_toUrl_eq (hmark : '?' ∉ c.database.toList)
    (hdirectory : ∀ directory, c.dataDirectory = some directory → '&' ∉ directory.toList) :
    ofUrl c.toUrl = ofParts c.database.toList c.parameters := by
  rw [ofUrl_of_parts hmark (toList_toUrl c), Text.split_intercalate (by simp [parameters])]
  intro text htext
  rcases List.mem_cons.1 htext with rfl | htext
  · cases c.strategy <;> decide +kernel
  · obtain ⟨directory, hdir, rfl⟩ := List.mem_map.1 htext
    simp [pair, hdirectory directory (Option.mem_toList.1 hdir)]

theorem foldlM_parameters (c start : Config) : c.parameters.foldlM setParameter start =
    (c.dataDirectory.toList.map (pair "path")).foldlM setParameter
      { start with strategy := c.strategy } := by
  rw [parameters, List.foldlM_cons, setParameter_strategy, Sequence.Strategy.ofName_name]
  rfl

/-- What a URL can say is read back as it was. -/
theorem Sayable.ofUrl_toUrl (h : c.Sayable) : ofUrl c.toUrl = .ok c := by
  obtain ⟨husual, ⟨hne, hslash, hmark⟩, hdirectory⟩ := h
  have hname : ¬ (c.database.toList.isEmpty ∨ c.database.toList.contains '/') := by
    rw [not_or]
    exact ⟨by simpa using hne, by simpa using hslash⟩
  rw [ofUrl_toUrl_eq hmark fun directory hdir => (hdirectory directory hdir).2, ofParts,
    if_neg hname, String.ofList_toList, foldlM_parameters]
  rw [Usual] at husual
  cases hdir : c.dataDirectory with
  | none =>
    rw [hdir] at husual
    exact congrArg Except.ok husual.symm
  | some directory =>
    rw [hdir] at husual
    rw [Option.toList_some, List.map_singleton, List.foldlM_cons,
      setParameter_path _ (hdirectory directory hdir).1]
    exact congrArg Except.ok husual.symm

/-- Without a question mark in the database and an ampersand in the directory, what cannot be said is
refused. -/
theorem ofUrl_toUrl_of_not_sayable (husual : c.Usual) (hmark : '?' ∉ c.database.toList)
    (hdirectory : ∀ directory, c.dataDirectory = some directory → '&' ∉ directory.toList)
    (h : ¬ c.Sayable) : ∃ e, ofUrl c.toUrl = .error e := by
  rw [ofUrl_toUrl_eq hmark hdirectory, ofParts]
  split
  · exact ⟨_, rfl⟩
  · next hname =>
    rw [not_or] at hname
    have hempty : c.dataDirectory = some "" := by
      by_contra hne
      refine h ⟨husual, ⟨by simpa using hname.1, by simpa using hname.2, hmark⟩, ?_⟩
      exact fun directory hdir => ⟨fun heq => hne (heq ▸ hdir), hdirectory directory hdir⟩
    rw [foldlM_parameters, hempty]
    exact ⟨_, rfl⟩

/-- What is read from a URL is also read from the URL that it is written as. -/
theorem ofUrl_toUrl_of_ofUrl (h : ofUrl url = .ok c) : ofUrl c.toUrl = .ok c :=
  (sayable_of_ofUrl h).ofUrl_toUrl

/-- A configuration with marks in its names that end none of them. -/
def cluttered : Config := { ofDatabase "a&b=ü" with dataDirectory := some "/y?z==ß" }

theorem toUrl_cluttered :
    cluttered.toUrl = "batchstore://a&b=ü?strategy=atomic-increment&path=/y?z==ß" := by decide +kernel

/-- Of repeated parameters the last are written, in an order of their own. -/
theorem ofUrl_toUrl_of_cluttered :
    ofUrl "batchstore://a&b=ü?path=x&strategy=cas&path=/y?z==ß&strategy=inc" = .ok cluttered ∧
    ofUrl "batchstore://a&b=ü?strategy=atomic-increment&path=/y?z==ß" = .ok cluttered := by
  have hread : ofUrl "batchstore://a&b=ü?path=x&strategy=cas&path=/y?z==ß&strategy=inc" =
      .ok cluttered := Except.toOption_eq_some.1 (by decide +kernel)
  exact ⟨hread, toUrl_cluttered ▸ ofUrl_toUrl_of_ofUrl hread⟩

/-- The URL of a configuration with the usual names is read as that configuration exactly if a URL can
say it. If it is read as another one, then a question mark stands in the database or an ampersand in the
directory; without them it is read as the configuration or refused. -/
theorem ofUrl_toUrl_own (hvalid : c.validate = .ok ()) (husual : c.Usual) :
    (ofUrl c.toUrl = .ok c ↔ '/' ∉ c.database.toList ∧ '?' ∉ c.database.toList ∧
      ∀ directory, c.dataDirectory = some directory → directory ≠ "" ∧ '&' ∉ directory.toList) ∧
    ('?' ∉ c.database.toList →
      (∀ directory, c.dataDirectory = some directory → '&' ∉ directory.toList) →
      (∃ e, ofUrl c.toUrl = .error e) ∨ ofUrl c.toUrl = .ok c) := by
  have hne : c.database ≠ "" := fun hempty => by
    rw [validate, hempty] at hvalid
    cases hvalid
  constructor
  · constructor
    · intro h
      obtain ⟨-, ⟨-, hslash, hmark⟩, hdirectory⟩ := sayable_of_ofUrl h
      exact ⟨hslash, hmark, hdirectory⟩
    · rintro ⟨hslash, hmark, hdirectory⟩
      exact Sayable.ofUrl_toUrl ⟨husual, ⟨hne, hslash, hmark⟩, hdirectory⟩
  · intro hmark hdirectory
    by_cases h : c.Sayable
    · exact .inr h.ofUrl_toUrl
    · exact .inl (ofUrl_toUrl_of_not_sayable husual hmark hdirectory h)

theorem ofUrl_toUrl_own_of_cluttered : cluttered.validate = .ok () ∧ cluttered.Usual ∧
    ofUrl cluttered.toUrl = .ok cluttered := by
  have hvalid : cluttered.validate = .ok () := Except.toOption_eq_some.1 (by decide +kernel)
  refine ⟨hvalid, rfl, (ofUrl_toUrl_own hvalid rfl).1.2 ⟨by decide +kernel, by decide +kernel, ?_⟩⟩
  rintro directory ⟨⟩
  exact ⟨by decide +kernel, by decide +kernel⟩

/-- A directory that goes on like a strategy. -/
def trailing : Config := { ofDatabase "batch" with dataDirectory := some "/data&strategy=cas" }

/-- A database that goes on like a directory. -/
def questioned : Config := ofDatabase "batch?path=x"

/-- The URL of a configuration is read as another one, with a shorter directory and another strategy,
or with a shorter database and a directory. -/
theorem toUrl_says_another :
    (trailing.validate = .ok () ∧ trailing.Usual ∧ ofUrl trailing.toUrl = .ok
      { ofDatabase "batch" with strategy := .compareAndSwap, dataDirectory := some "/data" }) ∧
    (questioned.validate = .ok () ∧ questioned.Usual ∧ ofUrl questioned.toUrl = .ok
      { ofDatabase "batch" with dataDirectory := some "x?strategy=atomic-increment" }) ∧
    ofUrl trailing.toUrl ≠ .ok trailing ∧ ofUrl questioned.toUrl ≠ .ok questioned := by
  have htrailing : ofUrl trailing.toUrl = .ok { ofDatabase "batch" with
      strategy := .compareAndSwap, dataDirectory := some "/data" } :=
    Except.toOption_eq_some.1 (by decide +kernel)
  have hquestioned : ofUrl questioned.toUrl = .ok { ofDatabase "batch" with
      dataDirectory := some "x?strategy=atomic-increment" } :=
    Except.toOption_eq_some.1 (by decide +kernel)
  refine ⟨⟨Except.toOption_eq_some.1 (by decide +kernel), rfl, htrailing⟩,
    ⟨Except.toOption_eq_some.1 (by decide +kernel), rfl, hquestioned⟩, ?_, ?_⟩
  · rw [htrailing]
    exact fun h => absurd (congrArg Config.strategy (Except.ok.inj h)) (by decide)
  · rw [hquestioned]
    exact fun h => absurd (congrArg Config.dataDirectory (Except.ok.inj h)) (by decide)

end StepLedger.Config
