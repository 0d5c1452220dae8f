import Conform.CommandLine
import Conform.Proofs.Document.Loaded
import Conform.Proofs.Document.Stored
/-!
# What the command answers

A check that is asked for ends: with a complaint if something cannot be loaded, and otherwise with
the answer of a test, and the sentence of a mismatch. Main statement: `run_check`.
-/

set_option autoImplicit false

namespace Conform.CommandLine

open Document

variable {files : Files} {c : CheckRequest} {m : Material}

/-! ## Arguments -/

/-- Arguments that name no files stay as they are. -/
theorem expandArguments_of_plain {h : Heap} {arguments : List String}
    (hp : ∀ a ∈ arguments, a.startsWith "@" = false) (depth : Nat) :
    expandArguments h files (depth + 1) arguments = .ok arguments := by
  have hmap : (arguments.mapM fun a =>
      if a.startsWith "@" then do
        expandArguments h files depth (← argumentsIn h files (a.drop 1).toString)
      else pure [a]) = .ok (arguments.map fun a => [a]) := by
    induction arguments with
    | nil => rfl
    | cons a arguments ih =>
      obtain ⟨ha, hrest⟩ := List.forall_mem_cons.mp hp
      rw [List.mapM_cons, ha, ih hrest]
      rfl
  rw [expandArguments, hmap]
  exact congrArg Except.ok (List.flatMap_singleton' arguments)

/-! ## Loading -/

/-- What a check works on, as its files and arguments have it. -/
structure Loads (files : Files) (c : CheckRequest) (m : Material) : Prop where
  schema : loadSchema .empty files (.extended .empty []) c.schema = .ok m.schema
  value : parseValue files c.value = .ok m.value
  options : optionsOf .empty files c = .ok m.options

/-- One of the three cannot be loaded. -/
inductive LoadFails (files : Files) (c : CheckRequest) : Failure → Prop
  | schema {failure : Failure}
      (fails : loadSchema .empty files (.extended .empty []) c.schema = .error failure) :
      LoadFails files c failure
  | value {failure : Failure} (fails : parseValue files c.value = .error failure) :
      LoadFails files c failure
  | options {failure : Failure} (fails : optionsOf .empty files c = .error failure) :
      LoadFails files c failure

theorem loads_or_fails (files : Files) (c : CheckRequest) :
    (∃ m, Loads files c m) ∨ ∃ failure, LoadFails files c failure := by
  cases hschema : loadSchema .empty files (.extended .empty []) c.schema with
  | error failure => exact .inr ⟨failure, .schema hschema⟩
  | ok schema =>
    cases hvalue : parseValue files c.value with
    | error failure => exact .inr ⟨failure, .value hvalue⟩
    | ok value =>
      cases hoptions : optionsOf .empty files c with
      | error failure => exact .inr ⟨failure, .options hoptions⟩
      | ok options => exact .inl ⟨⟨schema, value, options⟩, hschema, hvalue, hoptions⟩

theorem Loads.not_fails (hl : Loads files c m) (failure : Failure) :
    ¬ LoadFails files c failure := by
  intro hf
  cases hf with
  | schema fails => cases hl.schema.symm.trans fails
  | value fails => cases hl.value.symm.trans fails
  | options fails => cases hl.options.symm.trans fails

theorem exists_json_of_readDocument {what : String} {p : PathName} {v : Value}
    (hv : readDocument files what p = .ok v) : ∃ j : Json, v = j.toValue := by
  unfold readDocument at hv
  dsimp only at hv
  split at hv
  · cases hv
  · obtain ⟨text, -, hv⟩ := exists_of_bind_eq_ok hv
    split at hv
    · next json _ =>
      cases hv
      exact ⟨json, rfl⟩
    · cases hv

theorem exists_json_of_readValue {text : String} {v : Value} (hv : readValue text = .ok v) :
    ∃ j : Json, v = j.toValue := by
  unfold readValue at hv
  split at hv
  · next json _ =>
    cases hv
    exact ⟨json, rfl⟩
  · cases hv

theorem exists_json_of_parseValue {source : String} {v : Value}
    (hv : parseValue files source = .ok v) : ∃ j : Json, v = j.toValue := by
  unfold parseValue at hv
  split at hv
  · obtain ⟨text, -, hv⟩ := exists_of_bind_eq_ok hv
    exact exists_json_of_readValue hv
  · exact exists_json_of_readValue hv

theorem exists_document_of_loadSchema {h : Heap} {r : Registry} {path : String} {schema : Value}
    (hs : loadSchema h files r path = .ok schema) :
    ∃ document : Json, readDocument files "Schema" (.ofText path) = .ok document.toValue ∧
      decode h r document.toValue = .ok schema := by
  obtain ⟨v, hread, hs⟩ := exists_of_bind_eq_ok hs
  obtain ⟨document, rfl⟩ := exists_json_of_readDocument hread
  exact ⟨document, hread, hs⟩

/-! ## Options -/

/-- The file of options sets the option that forbids undeclared properties. -/
def ConfigForbids (files : Files) (c : CheckRequest) : Prop :=
  ∃ path entries, c.config = some path ∧
    readDocument files "Options file" (.ofText path) = .ok (.mapping entries) ∧
    Heap.empty.lookup (.str Options.optionName) entries = some (.bool true)

theorem isEmpty_filter_iff {α : Type} {l : List α} {q : α → Bool} :
    ¬ (!(l.filter q).isEmpty) = true ↔ ∀ a ∈ l, q a = false := by
  rw [Bool.not_eq_true', Bool.not_eq_false, List.isEmpty_iff, List.filter_eq_nil_iff]
  simp only [Bool.not_eq_true]

/-- Of the options in a mapping out of JSON, the one that there is decides. -/
theorem exists_flag_of_ofEntries {h : Heap} {members : List (String × Json)} {o : Options}
    (ho : Options.ofEntries h (entriesOf members) = .ok o) :
    ∃ flag, o = ⟨.bool flag⟩ ∧
      (flag = true ↔
        h.lookup (.str Options.optionName) (entriesOf members) = some (.bool true)) := by
  unfold Options.ofEntries at ho
  dsimp only at ho
  split at ho
  · obtain ⟨_, -, ho⟩ := exists_of_bind_eq_ok ho
    cases ho
  · next hknown =>
    split at ho
    · obtain ⟨_, -, ho⟩ := exists_of_bind_eq_ok ho
      cases ho
    · next hflags =>
      rw [isEmpty_filter_iff] at hknown hflags
      cases members with
      | nil =>
        cases ho
        exact ⟨false, rfl, nofun, nofun⟩
      | cons m members =>
        obtain ⟨name, value⟩ := m
        rw [entriesOf] at hknown hflags
        have hname : name = Options.optionName := by
          have hequal := hknown (.str name) (List.mem_cons_self ..)
          rw [equal_str, Bool.not_eq_false'] at hequal
          exact beq_iff_eq.mp hequal
        have hflag := hflags (.str name, value.toValue) (List.mem_cons_self ..)
        cases value with
        | bool flag =>
          cases ho
          refine ⟨flag, rfl, ?_⟩
          rw [entriesOf, lookup_cons, equal_str, hname, beq_self_eq_true, if_pos rfl]
          simp [Json.toValue]
        | _ => cases hflag

theorem exists_flag_of_loadOptions {h : Heap} {path : String} {o : Options}
    (ho : loadOptions h files path = .ok o) :
    ∃ entries flag, readDocument files "Options file" (.ofText path) = .ok (.mapping entries) ∧
      o = ⟨.bool flag⟩ ∧
      (flag = true ↔ h.lookup (.str Options.optionName) entries = some (.bool true)) := by
  obtain ⟨v, hread, ho⟩ := exists_of_bind_eq_ok ho
  obtain ⟨j, rfl⟩ := exists_json_of_readDocument hread
  cases j with
  | object members =>
    obtain ⟨flag, hflag, hiff⟩ := exists_flag_of_ofEntries ho
    exact ⟨entriesOf members, flag, hread, hflag, hiff⟩
  | _ => cases ho

theorem ofText_empty : PathName.ofText "" = ⟨false, []⟩ := by
  have hnames : "".splitOn "/" = [""] := by
    unfold String.splitOn
    rw [String.splitOnAux]
    rfl
  have hrelative : "".startsWith "/" = false := by simp
  rw [PathName.ofText, hnames, hrelative]
  rfl

/-- The empty path names no file of options, as it leads to a directory. -/
theorem ConfigForbids.exists_path (hc : ConfigForbids files c) :
    ∃ path entries, c.config = some path ∧ path.isEmpty = false ∧
      readDocument files "Options file" (.ofText path) = .ok (.mapping entries) ∧
      Heap.empty.lookup (.str Options.optionName) entries = some (.bool true) := by
  obtain ⟨path, entries, hpath, hread, hlookup⟩ := hc
  refine ⟨path, entries, hpath, ?_, hread, hlookup⟩
  by_contra hempty
  rw [Bool.not_eq_false, String.isEmpty_iff] at hempty
  rw [hempty, ofText_empty] at hread
  cases hread

/-- The flag forbids undeclared properties whatever the file of options says; without it, the file
decides. -/
theorem closed_of_optionsOf {o : Options} (ho : optionsOf .empty files c = .ok o) :
    ∃ strict, o.closed .empty = .ok strict ∧
      (strict = true ↔ c.noExcessProps = true ∨ ConfigForbids files c) := by
  have hbase : ∃ base flag, base = ⟨.bool flag⟩ ∧ (flag = true ↔ ConfigForbids files c) ∧
      o = if c.noExcessProps then ⟨.bool true⟩ else base := by
    unfold optionsOf at ho
    dsimp only at ho
    split at ho
    · next path hpath =>
      split at ho
      · next hempty =>
        cases ho
        refine ⟨Options.default, false, rfl, ⟨nofun, fun hc => ?_⟩, rfl⟩
        obtain ⟨path', _, hpath', hfull, -⟩ := hc.exists_path
        cases hpath.symm.trans hpath'
        cases hempty.symm.trans hfull
      · obtain ⟨base, hload, ho⟩ := exists_of_bind_eq_ok ho
        obtain ⟨entries, flag, hread, hflag, hiff⟩ := exists_flag_of_loadOptions hload
        cases ho
        refine ⟨base, flag, hflag, hiff.trans ⟨fun hlookup => ?_, fun hc => ?_⟩, rfl⟩
        · exact ⟨path, entries, hpath, hread, hlookup⟩
        · obtain ⟨path', entries', hpath', hread', hlookup⟩ := hc
          cases hpath.symm.trans hpath'
          cases hread.symm.trans hread'
          exact hlookup
    · next hnone =>
      cases ho
      refine ⟨Options.default, false, rfl, ⟨nofun, fun hc => ?_⟩, rfl⟩
      obtain ⟨path, _, hpath, -⟩ := hc
      cases hnone.symm.trans hpath
  obtain ⟨base, flag, rfl, hiff, rfl⟩ := hbase
  cases c.noExcessProps with
  | true => exact ⟨true, rfl, by simp⟩
  | false =>
    refine ⟨flag, ?_, by simp [hiff]⟩
    show Options.closed .empty ⟨.bool flag⟩ = .ok flag
    cases flag <;> rfl

/-! ## Lines -/

/-- A text of whole lines. -/
def EndsLine (text : String) : Prop := text = "" ∨ ∃ rest, text = rest ++ "\n"

theorem EndsLine.append {text text' : String} (ht : EndsLine text) (ht' : EndsLine text') :
    EndsLine (text ++ text') := by
  rcases ht' with rfl | ⟨rest, rfl⟩
  · rwa [String.append_empty]
  · exact .inr ⟨text ++ rest, (String.append_assoc ..).symm⟩

theorem endsLine_logLine (least : Level) (stamp : String) (level : Level)
    (source text : String) : EndsLine (logLine least stamp level source text) := by
  unfold logLine
  split
  · exact .inr ⟨_, rfl⟩
  · exact .inl rfl

/-! ## Checks -/

/-- The complaint that something cannot be loaded. -/
theorem report_of_isReported {failure : Failure} (hf : isReported failure = true)
    (stamp loaded : String) : ∃ err, report c stamp loaded failure = .ok ⟨2, "", err⟩ := by
  rw [report, if_pos hf]
  exact ⟨_, rfl⟩

theorem check_of_fails (reported : ∀ failure, LoadFails files c failure → isReported failure = true)
    {failure : Failure} (hf : LoadFails files c failure) (stamp : String) :
    ∃ err, check c stamp files = .ok ⟨2, "", err⟩ := by
  unfold check
  dsimp only
  cases hschema : loadSchema .empty files (.extended .empty []) c.schema with
  | error e => exact report_of_isReported (reported e (.schema hschema)) stamp ""
  | ok schema =>
    cases hvalue : parseValue files c.value with
    | error e => exact report_of_isReported (reported e (.value hvalue)) stamp _
    | ok value =>
      cases hoptions : optionsOf .empty files c with
      | error e => exact report_of_isReported (reported e (.options hoptions)) stamp _
      | ok options =>
        have hl : Loads files c ⟨schema, value, options⟩ := ⟨hschema, hvalue, hoptions⟩
        exact absurd hf (hl.not_fails failure)

theorem check_of_loads (hl : Loads files c m) (stamp : String) :
    ∃ loaded, EndsLine loaded ∧ check c stamp files = verdict c stamp loaded m := by
  unfold check
  dsimp only
  rw [hl.schema]
  dsimp only
  rw [hl.value, ok_bind, hl.options, ok_bind]
  exact ⟨_, endsLine_logLine .., rfl⟩

/-- The setting in which a check takes place. -/
def Material.setting (m : Material) (strict : Bool) : Setting :=
  documentWorld.under ⟨m.options, strict, .own⟩

theorem setting_of_closed {strict : Bool} (hc : m.options.closed .empty = .ok strict) :
    documentWorld.setting m.options.toValue = .ok (m.setting strict) := by
  show (do pure (⟨documentWorld, ← Validator.ofOptions documentWorld.heap .own m.options⟩ :
    Setting)) = _
  rw [Validator.ofOptions, documentWorld, hc]
  rfl

theorem verdict_of_validate {strict : Bool} (hc : m.options.closed .empty = .ok strict)
    {found : Option Mismatch}
    (hf : (documentWorld.validate m.schema m.value m.options.toValue .start).1 = .ok found)
    (stamp : String) {loaded : String} (hl : EndsLine loaded) :
    (found = none ∧ ∃ err, verdict c stamp loaded m = .ok ⟨0, "OK\n", err⟩) ∨
      ∃ mismatch before, found = some mismatch ∧ EndsLine before ∧
        verdict c stamp loaded m
          = .ok ⟨1, "", before ++ mismatch.sentence .empty ++ "\n"⟩ := by
  have hsetting := setting_of_closed hc
  rw [World.validate, hsetting, Validation.lift_ok, Validation.pure_bind] at hf
  unfold verdict
  dsimp only
  rw [hsetting, ok_bind, hf, ok_bind]
  cases found with
  | none => exact .inl ⟨rfl, _, rfl⟩
  | some mismatch =>
    refine .inr ⟨mismatch, _, rfl, ?_, rfl⟩
    exact ((hl.append (endsLine_logLine ..)).append (endsLine_logLine ..)).append
      (endsLine_logLine ..)

/-- What a check says of the things that it works on: that they pass a test, or why they fail, in
the last lines that it writes. -/
structure Concludes (m : Material) (outcome : Outcome) : Prop where
  passed : (outcome.code = 0 ∧ outcome.out = "OK\n") ↔
    (documentWorld.test m.schema m.value m.options.toValue .start).1 = .ok true
  failed : (documentWorld.test m.schema m.value m.options.toValue .start).1 ≠ .ok true →
    outcome.code = 1 ∧ outcome.out = "" ∧ ∃ mismatch before,
      (documentWorld.validate m.schema m.value m.options.toValue .start).1 = .ok (some mismatch) ∧
        EndsLine before ∧ outcome.err = before ++ mismatch.sentence .empty ++ "\n"

theorem exists_verdict {strict : Bool} (hc : m.options.closed .empty = .ok strict)
    {found : Option Mismatch}
    (hf : (documentWorld.validate m.schema m.value m.options.toValue .start).1 = .ok found)
    (stamp : String) {loaded : String} (hl : EndsLine loaded) :
    ∃ outcome, verdict c stamp loaded m = .ok outcome ∧ outcome.code ≠ 2 ∧
      Concludes m outcome := by
  have htest : (documentWorld.test m.schema m.value m.options.toValue .start).1
      = .ok found.isNone := by
    rw [World.test_result, hf]
    rfl
  rcases verdict_of_validate hc hf stamp hl with
    ⟨rfl, err, hverdict⟩ | ⟨mismatch, before, rfl, hends, hverdict⟩
  · exact ⟨_, hverdict, nofun, ⟨fun _ => htest, fun _ => ⟨rfl, rfl⟩⟩,
      fun hnot => absurd htest hnot⟩
  · refine ⟨_, hverdict, nofun, ⟨nofun, fun hpasses => ?_⟩, fun _ => ?_⟩
    · cases htest.symm.trans hpasses
    · exact ⟨rfl, rfl, mismatch, before, hf, hends, rfl⟩

/-- Validating JSON against a schema out of a document fails under no options. -/
theorem validate_decoded {document : Json} (value : Json) {schema options : Value} {s : Setting}
    (decodes : decode .empty (.extended .empty []) document.toValue = .ok schema)
    (hs : documentWorld.setting options = .ok s) :
    ∃ found, (documentWorld.validate schema value.toValue options .start).1 = .ok found ∧
      ∀ mismatch, found = some mismatch → Sayable .empty mismatch := by
  have hworld := toWorld_of_setting hs
  have hloadable : Loadable s.heap schema := hworld ▸ loadable_of_decode decodes
  obtain ⟨found, hfound, hsayable⟩ := validate_of_loadable hloadable (.json value)
  refine ⟨found, ?_, fun mismatch hm => ?_⟩
  · rw [World.validate, hs, Validation.lift_ok, Validation.pure_bind]
    exact hfound
  · have hm := hsayable mismatch hm
    rwa [hworld] at hm

/-- A check that is asked for ends, if whatever cannot be loaded can be complained of: with a
complaint just if one of the schema, the value and the options cannot be loaded, and otherwise with
the answer of a test. What is loaded, and all other JSON, can be validated against the schema of a
document without a failure. -/
theorem run_check :
    (∀ (stamp : String) (files : Files) (arguments expanded : List String) (c : CheckRequest),
      expandArguments .empty files (files.entries.length + 1) arguments = .ok expanded →
      readArguments expanded = .ok (.check c) →
      (∀ failure, LoadFails files c failure → isReported failure = true) →
      ∃ outcome, run stamp files arguments = .ok outcome ∧
        (outcome.code = 2 ↔ ∃ failure, LoadFails files c failure) ∧
        (outcome.code = 2 → outcome.out = "") ∧
        (outcome.code ≠ 2 → ∃ m, Loads files c m ∧
          (∃ document value : Json,
            readDocument files "Schema" (.ofText c.schema) = .ok document.toValue ∧
            decode .empty (.extended .empty []) document.toValue = .ok m.schema ∧
            m.value = value.toValue) ∧
          (∃ strict, m.options.closed .empty = .ok strict ∧
            (strict = true ↔ c.noExcessProps = true ∨ ConfigForbids files c)) ∧
          Concludes m outcome)) ∧
    ∀ (document value : Json) (schema options : Value) (s : Setting),
      decode .empty (.extended .empty []) document.toValue = .ok schema →
      documentWorld.setting options = .ok s →
      ∃ found, (documentWorld.validate schema value.toValue options .start).1 = .ok found ∧
        ∀ mismatch, found = some mismatch → Sayable .empty mismatch := by
  refine ⟨fun stamp files arguments expanded c expands reads reported => ?_,
    fun _ value _ _ _ => validate_decoded value⟩
  have hrun : run stamp files arguments = check c stamp files := by
    unfold run
    dsimp only
    rw [expands]
    dsimp only
    rw [reads]
  rw [hrun]
  rcases loads_or_fails files c with ⟨m, hl⟩ | ⟨failure, hf⟩
  · obtain ⟨document, hread, hdecode⟩ := exists_document_of_loadSchema hl.schema
    obtain ⟨value, hvalue⟩ := exists_json_of_parseValue hl.value
    obtain ⟨strict, hclosed, hstrict⟩ := closed_of_optionsOf hl.options
    obtain ⟨found, hfound, -⟩ := validate_decoded value hdecode (setting_of_closed hclosed)
    rw [← hvalue] at hfound
    obtain ⟨loaded, hends, hcheck⟩ := check_of_loads hl stamp
    obtain ⟨outcome, hverdict, hcode, hconcludes⟩ := exists_verdict hclosed hfound stamp hends
    refine ⟨outcome, hcheck.trans hverdict, ⟨fun htwo => absurd htwo hcode, ?_⟩,
      fun htwo => absurd htwo hcode, fun _ => ?_⟩
    · rintro ⟨failure, hf⟩
      exact absurd hf (hl.not_fails failure)
    · exact ⟨m, hl, ⟨document, value, hread, hdecode, hvalue⟩, ⟨strict, hclosed, hstrict⟩,
        hconcludes⟩
  · obtain ⟨err, hcheck⟩ := check_of_fails reported hf stamp
    exact ⟨_, hcheck, ⟨fun _ => ⟨failure, hf⟩, fun _ => rfl⟩, fun _ => rfl,
      fun hnot => absurd rfl hnot⟩

/-! ## An example -/

def nameFiles : Files := ⟨[(["n"], .file (Text.bytes ((Json.str "string").text .spaced)))]⟩

def nameArguments : List String := ["--schema", "n", "--value", "5", "--no-excess-props"]

def nameRequest : CheckRequest := ⟨"n", "5", none, true, .warning⟩

theorem exactly_number : PathName.exactly "5" = ⟨false, ["5"]⟩ := by
  have hnames : "5".splitOn "/" = ["5"] := by
    unfold String.splitOn
    rw [String.splitOnAux, String.splitOnAux]
    rfl
  have hrelative : "5".startsWith "/" = false := by simp
  rw [PathName.exactly, hnames, hrelative]
  rfl

theorem loads_nameRequest :
    Loads nameFiles nameRequest ⟨.str "string", .int 5, ⟨.bool true⟩⟩ where
  schema := by
    have stored : nameFiles.read (.ofText "n")
        = .ok (Text.bytes ((Json.str "string").text .spaced)) := by
      rw [ofText_name]
      rfl
    have hread := readDocument_text (spaced_layoutOf .none) (.atom rfl) stored "Schema"
    rw [nameRequest, loadSchema, hread]
    rfl
  value := by
    rw [nameRequest, parseValue, exactly_number]
    rfl
  options := rfl

/-- A number, which is no file, is checked against the name that a file holds. -/
theorem run_check_number :
    expandArguments .empty nameFiles 2 nameArguments = .ok nameArguments ∧
      readArguments nameArguments = .ok (.check nameRequest) ∧
      (∀ failure, LoadFails nameFiles nameRequest failure → isReported failure = true) ∧
      (∃ outcome m, run "TIME" nameFiles nameArguments = .ok outcome ∧ outcome.code ≠ 2 ∧
        Loads nameFiles nameRequest m ∧ Concludes m outcome) ∧
      decode .empty (.extended .empty []) (Json.str "string").toValue = .ok (.str "string") ∧
      ∃ found, (documentWorld.validate (.str "string") (.int 5) .null .start).1 = .ok found ∧
        ∀ mismatch, found = some mismatch → Sayable .empty mismatch := by
  have expands : expandArguments .empty nameFiles 2 nameArguments = .ok nameArguments :=
    expandArguments_of_plain (by simp [nameArguments]) 1
  have reads : readArguments nameArguments = .ok (.check nameRequest) := rfl
  have never (failure : Failure) : ¬ LoadFails nameFiles nameRequest failure :=
    loads_nameRequest.not_fails failure
  obtain ⟨outcome, hrun, hcode, -, hm⟩ := run_check.1 "TIME" nameFiles nameArguments nameArguments
    nameRequest expands reads fun failure hf => absurd hf (never failure)
  have hne : outcome.code ≠ 2 := fun htwo =>
    have ⟨failure, hf⟩ := hcode.mp htwo
    never failure hf
  obtain ⟨m, hloads, -, -, hconcludes⟩ := hm hne
  exact ⟨expands, reads, fun failure hf => absurd hf (never failure),
    ⟨outcome, m, hrun, hne, hloads, hconcludes⟩, rfl,
    run_check.2 (.str "string") (.int 5) (.str "string") .null
      (documentWorld.under ⟨.default, false, .own⟩) rfl rfl⟩

end Conform.CommandLine
