import Scaffold.Config.Decode
import Scaffold.Proofs.ByteOrder
import Scaffold.Proofs.Reordering

/-!
# Settings are read exactly

A table is read if each of its entries is a setting, and then says what the settings are, field by
field. Of the entries that are no settings the one with the smallest name is blamed, in the order of
bytes, so the order of the document does not matter.
-/

namespace Scaffold.Config

/-! ### How settings are written -/

inductive Content where
  | text (text : String)
  | mode (mode : ConstructorMode)
deriving DecidableEq, Repr

def content (config : Config) : Field → Content
  | .project => .text config.project
  | .copyright => .text config.copyright
  | .outputDir => .text config.outputDir.text
  | .constructor => .mode config.constructor

inductive IsEmpty : Toml.Value → Prop where
  | array (ofHeaders : Bool) : IsEmpty (.array ofHeaders [])
  | table (origin : Toml.TableOrigin) : IsEmpty (.table origin [])

inductive Spells : Toml.Value → Content → Prop where
  | text (text : String) : Spells (.string text) (.text text)
  | modeName (mode : ConstructorMode) : Spells (.string mode.name) (.mode mode)
  | modeKey {mode : ConstructorMode} {origin : Toml.TableOrigin} {key : Toml.Key}
      {span : Toml.Span} {payload : Toml.Value} (hname : key.name = mode.name)
      (hpayload : IsEmpty payload) : Spells (.table origin [(key, span, payload)]) (.mode mode)

def Field.Takes (field : Field) (value : Toml.Value) : Prop :=
  match field with
  | .constructor => ∃ mode, Spells value (.mode mode)
  | .project | .copyright | .outputDir => ∃ text, Spells value (.text text)

/-- The name of a field with a value that it takes. -/
def IsSetting (entry : Toml.Entry) : Prop :=
  ∃ field : Field, entry.1.name = field.name ∧ field.Takes entry.2.2

inductive FailsAt : Toml.Entry → Toml.Span → Prop where
  | key {key : Toml.Key} {span : Toml.Span} {value : Toml.Value}
      (hname : ∀ field : Field, key.name ≠ field.name) : FailsAt (key, span, value) key.span
  | value {key : Toml.Key} {span : Toml.Span} {value : Toml.Value} {field : Field}
      (hname : key.name = field.name) (hvalue : ¬ field.Takes value)
      (htable : field = .constructor → ∀ origin entry, value ≠ .table origin [entry]) :
      FailsAt (key, span, value) span
  | modeKey {key modeKey : Toml.Key} {span payloadSpan : Toml.Span} {origin : Toml.TableOrigin}
      {payload : Toml.Value} (hname : key.name = Field.constructor.name)
      (hmode : ∀ mode : ConstructorMode, modeKey.name ≠ mode.name) :
      FailsAt (key, span, .table origin [(modeKey, payloadSpan, payload)]) modeKey.span
  | payload {key modeKey : Toml.Key} {span payloadSpan : Toml.Span} {origin : Toml.TableOrigin}
      {payload : Toml.Value} {mode : ConstructorMode} (hname : key.name = Field.constructor.name)
      (hmode : modeKey.name = mode.name) (hpayload : ¬ IsEmpty payload) :
      FailsAt (key, span, .table origin [(modeKey, payloadSpan, payload)]) payloadSpan

structure Follows (config start : Config) (entries : Toml.Entries) : Prop where
  spells : ∀ entry ∈ entries, ∀ field : Field, entry.1.name = field.name →
    Spells entry.2.2 (config.content field)
  keeps : ∀ field : Field, (∀ entry ∈ entries, entry.1.name ≠ field.name) →
    config.content field = start.content field

structure IsFirstFault (entries : Toml.Entries) (entry : Toml.Entry) : Prop where
  mem : entry ∈ entries
  not_isSetting : ¬ IsSetting entry
  isFirst : ∀ other ∈ entries, Text.utf8 other.1.name < Text.utf8 entry.1.name → IsSetting other

structure IsReadingOf (entries : Toml.Entries) (result : Except DecodeError Config) : Prop where
  isOk_iff : (∃ config, result = .ok config) ↔ ∀ entry ∈ entries, IsSetting entry
  follows : ∀ config, result = .ok config → config.Follows default entries
  blames : ∀ error, result = .error error →
    ∃ entry, IsFirstFault entries entry ∧ FailsAt entry error.span

variable {field : Field} {span : Toml.Span} {value : Toml.Value} {config start middle : Config}
  {entry twin : Toml.Entry} {entries first second : Toml.Entries}

/-! ### One value -/

structure Refuses {α : Type} (field : Field) (span : Toml.Span) (value : Toml.Value)
    (result : Except DecodeError α) : Prop where
  not_takes : ¬ field.Takes value
  fails : ∃ error, result = .error error ∧
    ∀ key : Toml.Key, key.name = field.name → FailsAt (key, span, value) error.span

theorem refuses_value {α : Type} {problem : DecodeProblem} (hvalue : ¬ field.Takes value)
    (htable : field = .constructor → ∀ origin entry, value ≠ .table origin [entry]) :
    Refuses field span value (.error ⟨problem, span⟩ : Except DecodeError α) :=
  ⟨hvalue, _, rfl, fun _ hname => .value hname hvalue htable⟩

theorem Refuses.bind {α β : Type} {result : Except DecodeError α}
    (h : Refuses field span value result) (next : α → Except DecodeError β) :
    Refuses field span value (result >>= next) := by
  obtain ⟨hvalue, error, rfl, hfails⟩ := h
  exact ⟨hvalue, error, rfl, hfails⟩

theorem decodeText_cases (field : Field) (hfield : field ≠ .constructor) (span : Toml.Span)
    (value : Toml.Value) :
    (∃ text, Spells value (.text text) ∧ decodeText field span value = .ok text) ∨
      Refuses field span value (decodeText field span value) := by
  have htakes (h : ∀ text, value ≠ .string text) : ¬ field.Takes value := by
    cases field with
    | constructor => exact absurd rfl hfield
    | project | copyright | outputDir =>
        rintro ⟨text, htext⟩
        cases htext
        exact h text rfl
  cases value with
  | string text => exact Or.inl ⟨text, .text text, rfl⟩
  | integer | float | boolean | moment | array | table =>
      exact Or.inr (refuses_value (htakes nofun) fun h => absurd h hfield)

theorem decodeModeName_cases (name : String) (span : Toml.Span) :
    (∃ mode : ConstructorMode, name = mode.name ∧ decodeModeName name span = .ok mode) ∨
      (∀ mode : ConstructorMode, name ≠ mode.name) ∧
        decodeModeName name span = .error ⟨.unknownMode name, span⟩ := by
  unfold decodeModeName
  cases hmode : ConstructorMode.ofName? name with
  | some mode =>
      have hname := List.find?_some hmode
      exact Or.inl ⟨mode, (beq_iff_eq.mp hname).symm, rfl⟩
  | none =>
      refine Or.inr ⟨fun mode hname => ?_, rfl⟩
      rw [hname, ConstructorMode.ofName?_name] at hmode
      cases hmode

theorem decodeNothing_cases (value : Toml.Value) :
    (IsEmpty value ∧ decodeNothing value = .ok ()) ∨
      ¬ IsEmpty value ∧ ∃ problem, decodeNothing value = .error problem := by
  cases value with
  | array ofHeaders items =>
      cases items with
      | nil => exact Or.inl ⟨.array ofHeaders, rfl⟩
      | cons item items => exact Or.inr ⟨nofun, _, rfl⟩
  | table origin entries =>
      cases entries with
      | nil => exact Or.inl ⟨.table origin, rfl⟩
      | cons entry entries => exact Or.inr ⟨nofun, _, rfl⟩
  | string | integer | float | boolean | moment => exact Or.inr ⟨nofun, _, rfl⟩

theorem decodeMode_singleton_cases (span : Toml.Span) (origin : Toml.TableOrigin)
    (entry : Toml.Entry) :
    (∃ mode, Spells (.table origin [entry]) (.mode mode) ∧
        decodeMode span (.table origin [entry]) = .ok mode) ∨
      Refuses .constructor span (.table origin [entry])
        (decodeMode span (.table origin [entry])) := by
  obtain ⟨key, payloadSpan, payload⟩ := entry
  rw [decodeMode]
  obtain ⟨mode, hname, hok⟩ | ⟨hname, herror⟩ := decodeModeName_cases key.name key.span
  · rw [hok]
    obtain ⟨hempty, hpayload⟩ | ⟨hfull, problem, hpayload⟩ := decodeNothing_cases payload
    · rw [hpayload]
      exact Or.inl ⟨mode, .modeKey hname hempty, rfl⟩
    · rw [hpayload]
      refine Or.inr ⟨?_, _, rfl, fun _ hconstructor => .payload hconstructor hname hfull⟩
      rintro ⟨other, hother⟩
      cases hother with
      | modeKey _ hempty => exact hfull hempty
  · rw [herror]
    refine Or.inr ⟨?_, _, rfl, fun _ hconstructor => .modeKey hconstructor hname⟩
    rintro ⟨other, hother⟩
    cases hother with
    | modeKey hother _ => exact hname other hother

theorem decodeMode_cases (span : Toml.Span) (value : Toml.Value) :
    (∃ mode, Spells value (.mode mode) ∧ decodeMode span value = .ok mode) ∨
      Refuses .constructor span value (decodeMode span value) := by
  have hother {value : Toml.Value} {problem : DecodeProblem}
      (htakes : ¬ Field.constructor.Takes value)
      (htable : ∀ origin entry, value ≠ .table origin [entry]) :
      Refuses .constructor span value
        (.error ⟨problem, span⟩ : Except DecodeError ConstructorMode) :=
    refuses_value htakes fun _ => htable
  cases value with
  | string text =>
      rw [decodeMode]
      obtain ⟨mode, rfl, hok⟩ | ⟨hname, herror⟩ := decodeModeName_cases text span
      · exact Or.inl ⟨mode, .modeName mode, hok⟩
      · rw [herror]
        refine Or.inr (hother ?_ nofun)
        rintro ⟨mode, hmode⟩
        cases hmode
        exact hname mode rfl
  | table origin entries =>
      match entries with
      | [entry] => exact decodeMode_singleton_cases span origin entry
      | [] => exact Or.inr (hother (fun ⟨_, hmode⟩ => nomatch hmode) nofun)
      | _ :: _ :: _ => exact Or.inr (hother (fun ⟨_, hmode⟩ => nomatch hmode) nofun)
  | integer | float | boolean | moment | array =>
      exact Or.inr (hother (fun ⟨_, hmode⟩ => nomatch hmode) nofun)

/-! ### One entry -/

theorem setField_cases (config : Config) (field : Field) (span : Toml.Span) (value : Toml.Value) :
    (field.Takes value ∧ ∃ result, config.setField field span value = .ok result ∧
        Spells value (result.content field) ∧
        ∀ other, other ≠ field → result.content other = config.content other) ∨
      Refuses field span value (config.setField field span value) := by
  have htext := decodeText_cases field
  cases field with
  | constructor =>
      obtain ⟨mode, hmode, hok⟩ | hrefuses := decodeMode_cases span value
      · refine Or.inl ⟨⟨mode, hmode⟩, { config with constructor := mode }, ?_, hmode, ?_⟩
        · rw [setField, hok]
          rfl
        · intro other hother
          cases other <;> first | rfl | exact absurd rfl hother
      · exact Or.inr (hrefuses.bind _)
  | project | copyright | outputDir =>
      obtain ⟨text, htext, hok⟩ | hrefuses := htext (by decide) span value
      · refine Or.inl ⟨⟨text, htext⟩, _, by rw [setField, hok]; rfl, ?_, ?_⟩
        · exact htext
        · intro other hother
          cases other <;> first | rfl | exact absurd rfl hother
      · exact Or.inr (hrefuses.bind _)

theorem decodeEntry_cases (config : Config) (entry : Toml.Entry) :
    (IsSetting entry ∧ ∃ result, decodeEntry config entry = .ok result ∧
        result.Follows config [entry]) ∨
      ¬ IsSetting entry ∧ ∃ error, decodeEntry config entry = .error error ∧
        FailsAt entry error.span := by
  obtain ⟨key, span, value⟩ := entry
  unfold decodeEntry
  cases hfield : Field.ofName? key.name with
  | none =>
      have hname (field : Field) : key.name ≠ field.name := by
        intro hname
        rw [hname, Field.ofName?_name] at hfield
        cases hfield
      exact Or.inr ⟨fun ⟨field, hkey, _⟩ => hname field hkey, _, rfl, .key hname⟩
  | some field =>
      have hname : key.name = field.name := by
        have hfound := List.find?_some hfield
        exact (beq_iff_eq.mp hfound).symm
      have hsame {other : Field} (hother : key.name = other.name) : other = field := by
        rw [hother, Field.ofName?_name] at hfield
        exact Option.some.inj hfield
      obtain ⟨htakes, result, hok, hspells, hkeeps⟩ | ⟨hvalue, error, herror, hfails⟩ :=
        setField_cases config field span value
      · refine Or.inl ⟨⟨field, hname, htakes⟩, result, hok, ?_, ?_⟩
        · intro entry hmem other hother
          obtain rfl := List.mem_singleton.mp hmem
          rw [hsame hother]
          exact hspells
        · intro other hother
          apply hkeeps
          rintro rfl
          exact hother _ List.mem_cons_self hname
      · refine Or.inr ⟨?_, error, herror, hfails key hname⟩
        rintro ⟨other, hother, htakes⟩
        rw [hsame hother] at htakes
        exact hvalue htakes

/-! ### A whole table -/

theorem Follows.nil (config : Config) : config.Follows config [] :=
  ⟨fun _ hmem => absurd hmem List.not_mem_nil, fun _ _ => rfl⟩

/-- What an entry has set, the entries after it leave alone. -/
theorem Follows.cons (hnew : entry.1.name ∉ entries.map (·.1.name))
    (hfirst : middle.Follows start [entry]) (hrest : config.Follows middle entries) :
    config.Follows start (entry :: entries) where
  spells := by
    intro other hother field hname
    obtain rfl | hother := List.mem_cons.mp hother
    · have hkeeps := hrest.keeps field fun later hlater hlaterName =>
        hnew (List.mem_map.mpr ⟨later, hlater, hlaterName.trans hname.symm⟩)
      rw [hkeeps]
      exact hfirst.spells other List.mem_cons_self field hname
    · exact hrest.spells other hother field hname
  keeps := by
    intro field hname
    have hnames := List.forall_mem_cons.mp hname
    exact (hrest.keeps field hnames.2).trans
      (hfirst.keeps field (List.forall_mem_singleton.mpr hnames.1))

/-- Entries are read up to the first one that is no setting. -/
theorem foldlM_decodeEntry_cases (hdistinct : entries.HasDistinctNames) (start : Config) :
    ((∀ entry ∈ entries, IsSetting entry) ∧
        ∃ config, entries.foldlM decodeEntry start = .ok config ∧ config.Follows start entries) ∨
      ∃ before entry after, entries = before ++ entry :: after ∧
        (∀ other ∈ before, IsSetting other) ∧ ¬ IsSetting entry ∧
        ∃ error, entries.foldlM decodeEntry start = .error error ∧ FailsAt entry error.span := by
  induction entries generalizing start with
  | nil => exact Or.inl ⟨List.forall_mem_nil _, start, rfl, .nil start⟩
  | cons entry entries ih =>
      obtain ⟨hnew, hdistinct⟩ := List.nodup_cons.mp hdistinct
      obtain ⟨hentry, middle, hmiddle, hfirst⟩ | ⟨hentry, error, herror, hfails⟩ :=
        decodeEntry_cases start entry
      · have hfold : (entry :: entries).foldlM decodeEntry start =
            entries.foldlM decodeEntry middle := by
          rw [List.foldlM_cons, hmiddle]
          rfl
        rw [hfold]
        obtain ⟨hall, config, hok, hrest⟩ | ⟨before, wrong, after, rfl, hbefore, hwrong⟩ :=
          ih hdistinct middle
        · exact Or.inl ⟨List.forall_mem_cons.mpr ⟨hentry, hall⟩, config, hok,
            hfirst.cons hnew hrest⟩
        · exact Or.inr ⟨entry :: before, wrong, after, rfl,
            List.forall_mem_cons.mpr ⟨hentry, hbefore⟩, hwrong⟩
      · refine Or.inr ⟨[], entry, entries, rfl, List.forall_mem_nil _, hentry, error, ?_, hfails⟩
        rw [List.foldlM_cons, herror]
        rfl

theorem perm_inNameOrder (entries : Toml.Entries) : (inNameOrder entries).Perm entries :=
  List.mergeSort_perm entries _

theorem pairwise_inNameOrder (entries : Toml.Entries) :
    (inNameOrder entries).Pairwise fun first second => first.1.name ≤ second.1.name := by
  have htrans (a b c : Toml.Entry) (hab : decide (a.1.name ≤ b.1.name) = true)
      (hbc : decide (b.1.name ≤ c.1.name) = true) : decide (a.1.name ≤ c.1.name) = true :=
    decide_eq_true (le_trans (of_decide_eq_true hab) (of_decide_eq_true hbc))
  have htotal (a b : Toml.Entry) :
      (decide (a.1.name ≤ b.1.name) || decide (b.1.name ≤ a.1.name)) = true := by
    rw [Bool.or_eq_true, decide_eq_true_eq, decide_eq_true_eq]
    exact le_total a.1.name b.1.name
  have hsorted := List.pairwise_mergeSort htrans htotal entries
  exact hsorted.imp of_decide_eq_true

theorem decode_cases (hdistinct : entries.HasDistinctNames) :
    ((∀ entry ∈ entries, IsSetting entry) ∧
        ∃ config, decode entries = .ok config ∧ config.Follows default entries) ∨
      ∃ entry, IsFirstFault entries entry ∧
        ∃ error, decode entries = .error error ∧ FailsAt entry error.span := by
  have hperm := perm_inNameOrder entries
  have hsorted : (inNameOrder entries).HasDistinctNames := ((hperm.map _).nodup_iff).mpr hdistinct
  obtain ⟨hall, config, hok, hfollows⟩ | ⟨before, entry, after, hsplit, hbefore, hwrong, hfails⟩ :=
    foldlM_decodeEntry_cases hsorted default
  · refine Or.inl ⟨fun entry hmem => hall entry (hperm.mem_iff.mpr hmem), config, hok, ?_, ?_⟩
    · exact fun entry hmem => hfollows.spells entry (hperm.mem_iff.mpr hmem)
    · exact fun field hname => hfollows.keeps field fun entry hmem =>
        hname entry (hperm.mem_iff.mp hmem)
  · refine Or.inr ⟨entry, ⟨?_, hwrong, ?_⟩, hfails⟩
    · rw [← hperm.mem_iff, hsplit]
      exact List.mem_append_right _ List.mem_cons_self
    · intro other hother hlt
      rw [Text.utf8_lt_utf8_iff] at hlt
      rw [← hperm.mem_iff, hsplit, List.mem_append, List.mem_cons] at hother
      have hpairwise := pairwise_inNameOrder entries
      rw [hsplit, List.pairwise_append] at hpairwise
      obtain hother | rfl | hother := hother
      · exact hbefore other hother
      · exact absurd hlt (lt_irrefl _)
      · exact absurd hlt (not_lt_of_ge (List.rel_of_pairwise_cons hpairwise.2.1 hother))

/-- **What a table says.** It is read just if all of its entries are settings, and else the first of
them that is none is blamed. -/
theorem isReadingOf_decode (hdistinct : entries.HasDistinctNames) :
    IsReadingOf entries (decode entries) := by
  obtain ⟨hall, config, hok, hfollows⟩ | ⟨entry, hfault, error, herror, hfails⟩ :=
    decode_cases hdistinct
  · rw [hok]
    refine ⟨⟨fun _ => hall, fun _ => ⟨config, rfl⟩⟩, ?_, nofun⟩
    rintro _ ⟨⟩
    exact hfollows
  · rw [herror]
    refine ⟨⟨nofun, fun hall => absurd (hall entry hfault.mem) hfault.not_isSetting⟩, nofun, ?_⟩
    rintro _ ⟨⟩
    exact ⟨entry, hfault, hfails⟩

/-! ### A table says one thing only -/

theorem name_injective : Function.Injective ConstructorMode.name := by
  intro mode other h
  have hmode := ConstructorMode.ofName?_name mode
  rw [h, ConstructorMode.ofName?_name] at hmode
  exact (Option.some.inj hmode).symm

theorem Spells.eq_string {text : String} (h : Spells value (.text text)) :
    value = .string text := by
  cases h
  rfl

theorem Spells.mode_unique {mode other : ConstructorMode} (h : Spells value (.mode mode))
    (hother : Spells value (.mode other)) : mode = other := by
  cases h with
  | modeName =>
      generalize hname : mode.name = name at hother
      cases hother
      exact name_injective hname
  | modeKey hname =>
      cases hother with
      | modeKey hother => exact name_injective (hname.symm.trans hother)

theorem Spells.unique {other : Config} (h : Spells value (config.content field))
    (hother : Spells value (other.content field)) :
    config.content field = other.content field := by
  cases field with
  | constructor => exact congrArg Content.mode (h.mode_unique hother)
  | project | copyright | outputDir =>
      have htext := h.eq_string.symm.trans hother.eq_string
      exact congrArg Content.text (Toml.Value.string.inj htext)

theorem eq_of_content_eq {other : Config}
    (h : ∀ field, config.content field = other.content field) : config = other := by
  obtain ⟨project, copyright, ⟨outputDir⟩, constructor⟩ := config
  obtain ⟨project', copyright', ⟨outputDir'⟩, constructor'⟩ := other
  have hproject := Content.text.inj (h .project)
  have hcopyright := Content.text.inj (h .copyright)
  have houtputDir := Content.text.inj (h .outputDir)
  have hconstructor := Content.mode.inj (h .constructor)
  simp only at hproject hcopyright houtputDir hconstructor
  rw [hproject, hcopyright, houtputDir, hconstructor]

theorem Follows.unique {other : Config} (h : config.Follows start entries)
    (hother : other.Follows start entries) : config = other := by
  apply eq_of_content_eq
  intro field
  by_cases hfield : ∃ entry ∈ entries, entry.1.name = field.name
  · obtain ⟨entry, hmem, hname⟩ := hfield
    exact (h.spells entry hmem field hname).unique (hother.spells entry hmem field hname)
  · have hname : ∀ entry ∈ entries, entry.1.name ≠ field.name := fun entry hmem hname =>
      hfield ⟨entry, hmem, hname⟩
    exact (h.keeps field hname).trans (hother.keeps field hname).symm

theorem IsFirstFault.unique {other : Toml.Entry} (hdistinct : entries.HasDistinctNames)
    (h : IsFirstFault entries entry) (hother : IsFirstFault entries other) : entry = other := by
  have hname : entry.1.name = other.1.name := by
    obtain hlt | heq | hlt := lt_trichotomy entry.1.name other.1.name
    · have hsetting := hother.isFirst entry h.mem (Text.utf8_lt_utf8_iff.mpr hlt)
      exact absurd hsetting h.not_isSetting
    · exact heq
    · have hsetting := h.isFirst other hother.mem (Text.utf8_lt_utf8_iff.mpr hlt)
      exact absurd hsetting hother.not_isSetting
  exact List.inj_on_of_nodup_map hdistinct h.mem hother.mem hname

/-! ### Tables in another order -/

theorem isEmpty_unplaced_iff : IsEmpty value.unplaced ↔ IsEmpty value := by
  cases value with
  | array ofHeaders items =>
      cases items with
      | nil => exact Iff.rfl
      | cons item items => exact ⟨nofun, nofun⟩
  | table origin entries =>
      cases entries with
      | nil => exact Iff.rfl
      | cons entry entries => exact ⟨nofun, nofun⟩
  | string | integer | float | boolean | moment => exact Iff.rfl

theorem spells_unplaced_iff {content : Content} :
    Spells value.unplaced content ↔ Spells value content := by
  cases value with
  | table origin entries =>
      rw [Toml.Value.unplaced, Toml.unplacedEntries_eq_map]
      constructor
      · intro h
        generalize hentries : entries.map Toml.Entry.unplaced = others at h
        cases h with
        | modeKey hname hpayload =>
            obtain ⟨⟨key, span, payload⟩, rfl, hentry⟩ := List.map_eq_singleton_iff.mp hentries
            cases hentry
            exact .modeKey hname (isEmpty_unplaced_iff.mp hpayload)
      · intro h
        cases h with
        | modeKey hname hpayload => exact .modeKey hname (isEmpty_unplaced_iff.mpr hpayload)
  | array ofHeaders items => exact ⟨nofun, nofun⟩
  | string | integer | float | boolean | moment => exact Iff.rfl

theorem takes_unplaced_iff : field.Takes value.unplaced ↔ field.Takes value := by
  cases field with
  | constructor => exact exists_congr fun mode => spells_unplaced_iff
  | project | copyright | outputDir => exact exists_congr fun text => spells_unplaced_iff

theorem IsSetting.of_unplaced_eq (h : twin.unplaced = entry.unplaced) (hentry : IsSetting entry) :
    IsSetting twin := by
  obtain ⟨field, hname, htakes⟩ := hentry
  refine ⟨field, (Toml.Entry.name_eq_of_unplaced_eq h).trans hname, ?_⟩
  rw [← takes_unplaced_iff, Toml.Entry.value_eq_of_unplaced_eq h, takes_unplaced_iff]
  exact htakes

theorem Follows.of_isReordered (h : first.IsReordered second)
    (hfirst : config.Follows start first) : config.Follows start second where
  spells := by
    intro entry hmem field hname
    obtain ⟨twin, htwin, hsame⟩ := h.symm.exists_twin hmem
    have hspells := hfirst.spells twin htwin field
      ((Toml.Entry.name_eq_of_unplaced_eq hsame).trans hname)
    rw [← spells_unplaced_iff, Toml.Entry.value_eq_of_unplaced_eq hsame, spells_unplaced_iff]
      at hspells
    exact hspells
  keeps := by
    intro field hname
    apply hfirst.keeps
    intro entry hmem hentry
    obtain ⟨twin, htwin, hsame⟩ := h.exists_twin hmem
    exact hname twin htwin ((Toml.Entry.name_eq_of_unplaced_eq hsame).trans hentry)

theorem IsFirstFault.of_isReordered (h : first.IsReordered second)
    (hentry : IsFirstFault first entry) :
    ∃ twin, IsFirstFault second twin ∧ twin.unplaced = entry.unplaced := by
  obtain ⟨twin, htwin, hsame⟩ := h.exists_twin hentry.mem
  have hwrong : ¬ IsSetting twin := fun hsetting =>
    hentry.not_isSetting (.of_unplaced_eq hsame.symm hsetting)
  refine ⟨twin, ⟨htwin, hwrong, ?_⟩, hsame⟩
  intro other hother hlt
  obtain ⟨earlier, hmem, hearlier⟩ := h.symm.exists_twin hother
  rw [Toml.Entry.name_eq_of_unplaced_eq hsame,
    ← Toml.Entry.name_eq_of_unplaced_eq hearlier] at hlt
  exact .of_unplaced_eq hearlier.symm (hentry.isFirst earlier hmem hlt)

theorem decode_eq_ok_of_isReordered (h : first.IsReordered second)
    (hdistinct : first.HasDistinctNames) (hok : decode first = .ok config) :
    decode second = .ok config := by
  have hfirst := isReadingOf_decode hdistinct
  have hsecond := isReadingOf_decode (h.hasDistinctNames hdistinct)
  have hall : ∀ entry ∈ second, IsSetting entry := by
    intro entry hmem
    obtain ⟨twin, htwin, hsame⟩ := h.symm.exists_twin hmem
    exact .of_unplaced_eq hsame.symm (hfirst.isOk_iff.mp ⟨config, hok⟩ twin htwin)
  obtain ⟨other, hother⟩ := hsecond.isOk_iff.mpr hall
  have hsame := ((hfirst.follows config hok).of_isReordered h).unique (hsecond.follows other hother)
  rw [hsame]
  exact hother

theorem decode_eq_error_of_isReordered {error : DecodeError} (h : first.IsReordered second)
    (hdistinct : first.HasDistinctNames) (herror : decode first = .error error) :
    ∃ other, decode second = .error other ∧ ∃ entry twin,
      IsFirstFault first entry ∧ FailsAt entry error.span ∧
      IsFirstFault second twin ∧ FailsAt twin other.span ∧ twin.unplaced = entry.unplaced := by
  have hsecond := h.hasDistinctNames hdistinct
  obtain ⟨entry, hentry, hfails⟩ := (isReadingOf_decode hdistinct).blames error herror
  obtain ⟨twin, htwin, hsame⟩ := hentry.of_isReordered h
  obtain ⟨hall, -⟩ | ⟨blamed, hblamed, other, hother, hblamedAt⟩ := decode_cases hsecond
  · exact absurd (hall twin htwin.mem) htwin.not_isSetting
  · obtain rfl := htwin.unique hsecond hblamed
    exact ⟨other, hother, entry, twin, hentry, hfails, htwin, hblamedAt, hsame⟩

/-! ### Texts -/

theorem parse_of_document {file : Path} {text : String}
    (h : Toml.document? text = some entries) :
    parse file text = (decode entries).mapError (⟨file, .undecodable ·⟩) := by
  rw [parse, ofText, h]
  change Except.mapError _ (Except.mapError _ (decode entries)) = _
  cases decode entries <;> rfl

/-- **Settings are read exactly.** A table with distinct keys is read just if each entry is a
setting. Then each field holds what its entry says, or its default. Else the smallest wrong key in
the order of bytes is blamed, with the place of the key or value that is wrong. The same entries in
another order give the same settings or blame the same entry. The table of a text that is
well-formed has distinct keys, and what comes of it is what comes of the text. -/
theorem decode_isExact :
    (∀ entries : Toml.Entries, entries.HasDistinctNames → IsReadingOf entries (decode entries)) ∧
      (∀ first second : Toml.Entries, first.HasDistinctNames → first.IsReordered second →
        (∀ config, decode first = .ok config ↔ decode second = .ok config) ∧
        ∀ error, decode first = .error error →
          ∃ other, decode second = .error other ∧ ∃ entry twin,
            IsFirstFault first entry ∧ FailsAt entry error.span ∧
            IsFirstFault second twin ∧ FailsAt twin other.span ∧
            twin.unplaced = entry.unplaced) ∧
      ∀ (file : Path) (text : String), match Toml.document? text with
        | none => parse file text = .error ⟨file, .illFormed⟩
        | some entries => entries.HasDistinctNames ∧
            parse file text = (decode entries).mapError (⟨file, .undecodable ·⟩) := by
  refine ⟨fun entries => isReadingOf_decode, fun first second hdistinct h => ?order,
    fun file text => ?text⟩
  case order =>
    constructor
    · intro config
      exact ⟨decode_eq_ok_of_isReordered h hdistinct,
        decode_eq_ok_of_isReordered h.symm (h.hasDistinctNames hdistinct)⟩
    · intro error
      exact decode_eq_error_of_isReordered h hdistinct
  case text =>
    cases hdocument : Toml.document? text with
    | none =>
        rw [parse, ofText, hdocument]
        rfl
    | some entries => exact ⟨Toml.hasDistinctNames_document? hdocument, parse_of_document hdocument⟩

/-- Two faults at once: a number for the directory, and after it a key that is no field. The key
comes before the directory in the order of names, and is blamed in either order of the document. -/
theorem decode_isExact_two_faults :
    let base : Toml.Key := ⟨"base", ⟨15, 4⟩⟩
    let first : Toml.Entries :=
      [(⟨"output_dir", ⟨0, 10⟩⟩, ⟨13, 1⟩, .integer 3), (base, ⟨22, 1⟩, .integer 1)]
    let second : Toml.Entries :=
      [(⟨"base", ⟨0, 4⟩⟩, ⟨7, 1⟩, .integer 1), (⟨"output_dir", ⟨9, 10⟩⟩, ⟨22, 1⟩, .integer 3)]
    first.HasDistinctNames ∧ first.IsReordered second ∧
      decode first = .error ⟨.unknownField "base", base.span⟩ ∧
      IsReadingOf first (decode first) ∧
      ∃ other, decode second = .error other ∧ ∃ entry twin,
        IsFirstFault first entry ∧ FailsAt entry base.span ∧
        IsFirstFault second twin ∧ FailsAt twin other.span ∧ twin.unplaced = entry.unplaced := by
  intro base first second
  have hdistinct : first.HasDistinctNames := by
    unfold Toml.Entries.HasDistinctNames
    decide
  have hreordered : first.IsReordered second := .swap _ _ []
  have horder : inNameOrder first =
      [(base, ⟨22, 1⟩, .integer 1), (⟨"output_dir", ⟨0, 10⟩⟩, ⟨13, 1⟩, .integer 3)] := by
    have hle : ¬ "output_dir" ≤ "base" := by decide
    simp [inNameOrder, first, base, List.mergeSort, hle]
  have hdecode : decode first = .error ⟨.unknownField "base", base.span⟩ := by
    rw [decode, horder]
    rfl
  obtain ⟨hreading, hreorder, -⟩ := decode_isExact
  exact ⟨hdistinct, hreordered, hdecode, hreading first hdistinct,
    (hreorder first second hdistinct hreordered).2 _ hdecode⟩

end Scaffold.Config
