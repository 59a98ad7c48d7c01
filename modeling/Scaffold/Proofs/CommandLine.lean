import Scaffold.Command.Run
import Scaffold.Proofs.Confinement

/-!
# No write under an invalid name

The program looks for its settings, then asks for what is missing, then checks the name. Up to there
the disk is as it was. What comes after goes into the one directory that the name stands for.
-/

namespace Scaffold

namespace Path

variable {directory file stem : Path} {before : List (List Char)} {name other : String}

theorem EndsWith.isPrefixOf (hdirectory : directory.EndsWith before name)
    (hfile : file.EndsWith directory.joint other) (hstem : stem ∈ file.ancestors) :
    stem.IsPrefixOf directory := by
  rw [hdirectory.ancestors hfile, List.mem_cons] at hstem
  rcases hstem with rfl | hmem
  · exact .refl stem
  · exact (isAncestorOf_of_mem_ancestors hmem).isPrefix

end Path

/-! ### Settings and answers -/

def Config.ofDisk (disk : Disk) (file : Path) : Except Config.LoadError Config :=
  match disk.readText file with
  | .error fault => .error (.read file fault)
  | .ok text => (Config.parse file text).mapError .parse

def Console.past (console : Console) (prompt : Prompt) : Console :=
  ⟨(Console.splitLine console.input).2, console.output ++ prompt.question⟩

def Console.field (console : Console) (prompt : Prompt) :
    Option String → Except AnswerError (String × Console)
  | some text => .ok (text, console)
  | none =>
    match Console.reply (Console.splitLine console.input).1 with
    | .error fault => .error ⟨prompt, fault⟩
    | .ok text => .ok (text, console.past prompt)

namespace NewArguments

/-- The settings are in the file that was named, or in the one in the root, if there is one. -/
def settings (arguments : NewArguments) (disk : Disk) : Except Config.LoadError Config :=
  let file := arguments.root.join ⟨Config.fileName⟩
  let found :=
    match arguments.configFile? with
    | some named => Config.ofDisk disk named
    | none => if disk.isFile file then Config.ofDisk disk file else .ok .default
  found.map fun config =>
    if arguments.has .checkedInit then { config with constructor := .checked } else config

def requested (arguments : NewArguments) (today : Date) (console : Console) :
    Except AnswerError Request := do
  let (name, console) ← console.field .name arguments.name
  let (author, console) ← console.field .author (arguments.value? .author)
  let (description, _) ← console.field .description (arguments.value? .description)
  return ⟨name, author, description, today⟩

end NewArguments

section Settings

variable {Query Answer σ : Type}

theorem Config.readsOnly_load (file : Path) :
    (Config.load file : Script Query Answer _).ReadsOnly := by
  refine Script.Only.bind (.perform trivial) fun read => ?_
  split <;> exact .done

theorem Config.readsOnly_discover (root : Path) :
    (Config.discover root : Script Query Answer _).ReadsOnly := by
  refine Script.Only.bind (.perform trivial) fun found => ?_
  split
  · exact readsOnly_load _
  · exact .done

theorem Config.run_load (file : Path) (answer : Query → σ → Answer × σ) (disk : Disk) (state : σ) :
    (Config.load file).run answer disk state = ⟨Config.ofDisk disk file, disk, state⟩ := by
  have hread : (Script.perform (.readText file)).run answer disk state =
      ⟨disk.readText file, disk, state⟩ := rfl
  unfold load ofDisk
  change ((Script.perform (.readText file)).bind _).run answer disk state = _
  rw [Script.run_bind, hread]
  cases disk.readText file <;> rfl

theorem Config.run_discover (root : Path) (answer : Query → σ → Answer × σ) (disk : Disk)
    (state : σ) : (Config.discover root).run answer disk state =
      ⟨if disk.isFile (root.join ⟨fileName⟩) then Config.ofDisk disk (root.join ⟨fileName⟩)
        else .ok .default, disk, state⟩ := by
  have hfind : (Script.perform (.isFile (root.join ⟨fileName⟩))).run answer disk state =
      ⟨disk.isFile (root.join ⟨fileName⟩), disk, state⟩ := rfl
  unfold discover
  change ((Script.perform (.isFile (root.join ⟨fileName⟩))).bind _).run answer disk state = _
  rw [Script.run_bind, hfind]
  cases disk.isFile (root.join ⟨fileName⟩) with
  | true => exact run_load _ answer disk state
  | false => rfl

end Settings

namespace Prompt

theorem readsOnly_ask (prompt : Prompt) : prompt.ask.ReadsOnly :=
  Script.Only.bind (.query prompt) fun _ => .done

theorem readsOnly_askUnless (prompt : Prompt) (given : Option String) :
    (prompt.askUnless given).ReadsOnly := by
  cases given with
  | none => exact prompt.readsOnly_ask
  | some answer => exact .done

theorem run_askUnless (prompt : Prompt) (given : Option String) (disk : Disk) (console : Console) :
    ∃ last, (prompt.askUnless given).run Console.answer disk console =
        ⟨(console.field prompt given).map Prod.fst, disk, last⟩ ∧
      ∀ text rest, console.field prompt given = .ok (text, rest) → rest = last := by
  cases given with
  | some answer =>
      refine ⟨console, rfl, fun text rest h => ?_⟩
      cases h
      rfl
  | none =>
      have hask : prompt.ask.run Console.answer disk console =
          ⟨(Console.reply (Console.splitLine console.input).1).mapError (⟨prompt, ·⟩), disk,
            console.past prompt⟩ := rfl
      rw [askUnless, hask, Console.field]
      refine ⟨console.past prompt, ?_⟩
      cases Console.reply (Console.splitLine console.input).1 with
      | error fault => exact ⟨rfl, by simp⟩
      | ok answer => exact ⟨rfl, by simp⟩

theorem run_askUnless_bind {α : Type} {prompt : Prompt} {given : Option String} {disk : Disk}
    {console : Console} {next : Except AnswerError String → Dialogue (Except AnswerError α)}
    {result : String × Console → Except AnswerError α}
    (herror : ∀ error, next (.error error) = .done (.error error))
    (hok : ∀ text rest, ∃ last, (next (.ok text)).run Console.answer disk rest =
      ⟨result (text, rest), disk, last⟩) :
    ∃ last, ((prompt.askUnless given).bind next).run Console.answer disk console =
      ⟨console.field prompt given >>= result, disk, last⟩ := by
  obtain ⟨last, hrun, hrest⟩ := prompt.run_askUnless given disk console
  rw [Script.run_bind, hrun]
  cases hfield : console.field prompt given with
  | error error =>
      refine ⟨last, ?_⟩
      change (next (.error error)).run Console.answer disk last = _
      rw [herror]
      rfl
  | ok field =>
      obtain ⟨text, rest⟩ := field
      obtain rfl := hrest text rest hfield
      exact hok text rest

end Prompt

namespace NewArguments

variable {arguments : NewArguments} {today : Date} {disk : Disk} {console : Console}
  {config : Config} {request : Request}

theorem readsOnly_loadConfig (arguments : NewArguments) : arguments.loadConfig.ReadsOnly := by
  unfold loadConfig
  cases arguments.configFile? with
  | some file => exact Script.Only.bind (Config.readsOnly_load _) fun _ => .done
  | none => exact Script.Only.bind (Config.readsOnly_discover _) fun _ => .done

theorem readsOnly_readRequest (arguments : NewArguments) (today : Date) :
    (arguments.readRequest today).ReadsOnly := by
  refine Script.Only.bind (Prompt.readsOnly_askUnless _ _) fun name => ?_
  split
  · exact .done
  · refine Script.Only.bind (Prompt.readsOnly_askUnless _ _) fun author => ?_
    split
    · exact .done
    · refine Script.Only.bind (Prompt.readsOnly_askUnless _ _) fun description => ?_
      split <;> exact .done

theorem readsOnly_confirm (arguments : NewArguments) (destination : Path) :
    (arguments.confirm destination).ReadsOnly := by
  unfold confirm
  split
  · exact .done
  · exact Script.Only.bind Prompt.overwrite.readsOnly_ask fun _ => .done

/-! ### The stages of a run -/

theorem run_loadConfig {σ : Type} (arguments : NewArguments)
    (answer : Prompt → σ → Except Fault String × σ) (disk : Disk) (state : σ) :
    arguments.loadConfig.run answer disk state = ⟨arguments.settings disk, disk, state⟩ := by
  unfold loadConfig settings
  cases arguments.configFile? with
  | some file =>
      change ((Config.load file).bind _).run answer disk state = _
      rw [Script.run_bind, Config.run_load]
      rfl
  | none =>
      change ((Config.discover _).bind _).run answer disk state = _
      rw [Script.run_bind, Config.run_discover]
      rfl

theorem run_readRequest (arguments : NewArguments) (today : Date) (disk : Disk)
    (console : Console) :
    ∃ last, (arguments.readRequest today).run Console.answer disk console =
      ⟨arguments.requested today console, disk, last⟩ := by
  unfold readRequest requested
  refine Prompt.run_askUnless_bind (fun _ => rfl) fun name afterName => ?_
  refine Prompt.run_askUnless_bind (fun _ => rfl) fun author afterAuthor => ?_
  refine Prompt.run_askUnless_bind (fun _ => rfl) fun description afterDescription => ?_
  exact ⟨afterDescription, rfl⟩

def judge (arguments : NewArguments) (config : Config) :
    Except AnswerError Request → Dialogue (Except RunFailure Report)
  | .error error => return .error (.answer error)
  | .ok request =>
    match request.validate with
    | .error error => return .error (.name error)
    | .ok () => arguments.create config request

def proceed (arguments : NewArguments) (today : Date) :
    Except Config.LoadError Config → Dialogue (Except RunFailure Report)
  | .error error => return .error (.config error)
  | .ok config => (arguments.readRequest today).bind (arguments.judge config)

theorem run_eq_bind (arguments : NewArguments) (today : Date) :
    arguments.run today = arguments.loadConfig.bind (arguments.proceed today) := rfl

theorem run_of_settings {settings : Except Config.LoadError Config}
    (hsettings : arguments.settings disk = settings) :
    (arguments.run today).run Console.answer disk console =
      (arguments.proceed today settings).run Console.answer disk console := by
  rw [run_eq_bind, Script.run_bind, run_loadConfig, hsettings]

theorem run_of_requested {answers : Except AnswerError Request}
    (hsettings : arguments.settings disk = .ok config)
    (hrequested : arguments.requested today console = answers) :
    ∃ last, (arguments.run today).run Console.answer disk console =
      (arguments.judge config answers).run Console.answer disk last := by
  obtain ⟨last, hlast⟩ := arguments.run_readRequest today disk console
  refine ⟨last, ?_⟩
  rw [run_of_settings hsettings, proceed, Script.run_bind, hlast, hrequested]

/-- A run calls what its last stage may call. All stages before it only look at the disk. -/
theorem isWithin_of_mem_events {made : Path → Prop} {written : Path → ByteArray → Prop} {c : Call}
    {reply : c.Reply} (hsettings : arguments.settings disk = .ok config)
    (hrequested : arguments.requested today console = .ok request)
    (honly : (arguments.judge config (.ok request)).Only (Call.IsWithin made written))
    (hmem : .called c reply ∈ (arguments.run today).events Console.answer disk console) :
    c.IsWithin made written := by
  rw [run_eq_bind, Script.events_bind, run_loadConfig, hsettings, List.mem_append] at hmem
  rcases hmem with hmem | hmem
  · exact arguments.readsOnly_loadConfig.within.of_mem_events hmem
  obtain ⟨last, hlast⟩ := arguments.run_readRequest today disk console
  rw [proceed, Script.events_bind, hlast, hrequested, List.mem_append] at hmem
  rcases hmem with hmem | hmem
  · exact (arguments.readsOnly_readRequest today).within.of_mem_events hmem
  · exact honly.of_mem_events hmem

theorem run_of_invalid {problem : InvalidName}
    (hsettings : arguments.settings disk = .ok config)
    (hrequested : arguments.requested today console = .ok request)
    (hname : request.validate = .error problem) :
    ∃ last, (arguments.run today).run Console.answer disk console =
      ⟨.error (.name problem), disk, last⟩ := by
  obtain ⟨last, hrun⟩ := run_of_requested hsettings hrequested
  refine ⟨last, ?_⟩
  rw [hrun, judge, hname]
  rfl

end NewArguments

/-! ### Inside the destination -/

def IsFileIn (directory : Path) (base : String) (path : Path) : Prop :=
  path = directory.join ⟨base ++ ".h"⟩ ∨ path = directory.join ⟨base ++ ".c"⟩

theorem Creation.isAllowed_destination {creation : Creation}
    (hname : creation.request.checkName = .ok ()) :
    creation.IsAllowed (·.IsPrefixOf creation.destination)
      fun path _ => IsFileIn creation.destination creation.blueprint.symbols.fileBase path where
  destination := .refl _
  ancestors _ hstem := (Path.isAncestorOf_of_mem_ancestors hstem).isPrefix
  headerAncestors _ :=
    have hslash : '/' ∉ ".h".toList := by decide
    (endsWith_destination hname).isPrefixOf (endsWith_file hname hslash _)
  sourceAncestors _ :=
    have hslash : '/' ∉ ".c".toList := by decide
    (endsWith_destination hname).isPrefixOf (endsWith_file hname hslash _)
  header := Or.inl rfl
  source := Or.inr rfl

namespace NewArguments

variable {arguments : NewArguments} {today : Date} {disk : Disk} {console : Console}
  {config : Config} {request : Request}

theorem only_judge (hname : request.checkName = .ok ()) :
    (arguments.judge config (.ok request)).Only
      (Call.IsWithin (·.IsPrefixOf (arguments.creation config request).destination)
        fun path _ => IsFileIn (arguments.creation config request).destination
          request.symbols.fileBase path) := by
  have hvalid : request.validate = .ok () := Request.validate_eq_ok_iff.mpr hname
  rw [judge, hvalid]
  change (arguments.create config request).Only _
  have hcheck : (arguments.creation config request).request.checkName = .ok () := hname
  have hcreation := (Creation.isAllowed_destination hcheck).only_run
    (fun _ => Call.IsBuilding.isWithin)
    (arguments.readsOnly_confirm (arguments.creation config request).destination).within
  refine Script.Only.bind hcreation fun report => ?_
  rcases report with (failure | error) | report <;> exact .done

end NewArguments

def IsPlainName (name : String) : Prop :=
  name ≠ "" ∧ ∀ c ∈ name.toList, c.isAlphanum = true ∨ c = '_'

theorem checkName_eq_ok_iff_isPlainName {name : String} :
    checkName name = .ok () ↔ IsPlainName name := by
  rw [checkName_eq_ok_iff]
  simp [IsPlainName, isNameChar]

structure StaysIn (parent : Path) (base : String) (disk after : Disk)
    (events : List (Event Prompt (Except Fault String))) : Prop where
  components : (parent.join ⟨base⟩).components = parent.components ++ [.name base.toList]
  separator : '/' ∉ base.toList
  ne_dot : base ≠ "." ∧ base ≠ ".."
  calls : ∀ c reply, .called c reply ∈ events → c.IsWithin (·.IsPrefixOf (parent.join ⟨base⟩))
    fun path _ => IsFileIn (parent.join ⟨base⟩) base path
  alters : disk.Alters (·.IsPrefixOf (parent.join ⟨base⟩))
    (fun path _ => IsFileIn (parent.join ⟨base⟩) base path) after

structure Aborts (disk : Disk) (failure : RunFailure) (ending : Script.Ending Console Finish) :
    Prop where
  value : ending.value = .failed failure
  exitCode : ending.value.exitCode ≠ 0
  disk : ending.disk = disk

structure IsGuarded (arguments : NewArguments) (today : Date) (disk : Disk) (console : Console)
    (ending : Script.Ending Console Finish)
    (events : List (Event Prompt (Except Fault String))) : Prop where
  config : ∀ error, arguments.settings disk = .error error →
    Aborts disk (.config error) ending ∧ ending.state = console
  answer : ∀ config error, arguments.settings disk = .ok config →
    arguments.requested today console = .error error → Aborts disk (.answer error) ending
  name : ∀ config request, arguments.settings disk = .ok config →
    arguments.requested today console = .ok request → ¬ IsPlainName request.shortName →
      ∃ problem, Aborts disk (.name ⟨request.shortName, problem⟩) ending
  directory : ∀ config request, arguments.settings disk = .ok config →
    arguments.requested today console = .ok request → IsPlainName request.shortName →
      StaysIn (arguments.root.join config.outputDir) ("CB" ++ request.shortName) disk ending.disk
        events

namespace Program

variable {words : List String} {arguments : NewArguments} {today : Date} {disk : Disk}
  {console : Console} {config : Config} {request : Request}

def finish : Except RunFailure Report → Finish
  | .ok report => .reported report
  | .error failure => .failed failure

theorem run_eq_bind (h : Invocation.ofWords words = .ok (.new arguments)) (today : Date) :
    run today words = (arguments.run today).bind fun result => .done (finish result) := by
  rw [run, h]
  change (arguments.run today).bind _ = _
  congr 1
  funext result
  cases result <;> rfl

theorem disk_run (h : Invocation.ofWords words = .ok (.new arguments)) :
    ((run today words).run Console.answer disk console).disk =
      ((arguments.run today).run Console.answer disk console).disk := by
  rw [run_eq_bind h, Script.run_bind]
  rfl

theorem aborts_of_run {failure : RunFailure}
    (h : Invocation.ofWords words = .ok (.new arguments)) {later : Console}
    (hrun : (arguments.run today).run Console.answer disk console =
      ⟨.error failure, disk, later⟩) :
    Aborts disk failure ((run today words).run Console.answer disk console) ∧
      ((run today words).run Console.answer disk console).state = later := by
  rw [run_eq_bind h, Script.run_bind, hrun]
  have hcode : (Finish.failed failure).exitCode ≠ 0 := by
    rw [Finish.exitCode]
    decide
  exact ⟨⟨rfl, hcode, rfl⟩, rfl⟩

theorem staysIn (h : Invocation.ofWords words = .ok (.new arguments))
    (hsettings : arguments.settings disk = .ok config)
    (hrequested : arguments.requested today console = .ok request)
    (hname : checkName request.shortName = .ok ()) :
    StaysIn (arguments.root.join config.outputDir) request.symbols.fileBase disk
      ((run today words).run Console.answer disk console).disk
      ((run today words).events Console.answer disk console) := by
  have hends : (arguments.creation config request).destination.EndsWith _ _ :=
    Creation.endsWith_destination hname
  have honly : (arguments.judge config (.ok request)).Only _ := NewArguments.only_judge hname
  have hlist : request.symbols.fileBase.toList = 'C' :: 'B' :: request.shortName.toList :=
    toList_fileBase request.shortName
  constructor
  case components => exact hends.components
  case separator => exact notMem_fileBase hname (by decide)
  case ne_dot =>
    constructor <;>
      intro hdots <;>
      rw [hdots] at hlist <;>
      simp at hlist
  case calls =>
    intro c reply hmem
    rw [run_eq_bind h, Script.events_bind, List.mem_append] at hmem
    rcases hmem with hmem | hmem
    · exact NewArguments.isWithin_of_mem_events hsettings hrequested honly hmem
    · cases hmem
  case alters =>
    obtain ⟨last, hrun⟩ := NewArguments.run_of_requested hsettings hrequested
    rw [disk_run h, hrun]
    exact honly.alters Console.answer disk last

/-- **No write under an invalid name.** Whatever else a command line says that asks for a new type,
and whatever the disk and the input hold, the run is guarded. -/
theorem isGuarded (h : Invocation.ofWords words = .ok (.new arguments)) (today : Date)
    (disk : Disk) (console : Console) :
    IsGuarded arguments today disk console ((run today words).run Console.answer disk console)
      ((run today words).events Console.answer disk console) where
  config error hsettings := aborts_of_run h (NewArguments.run_of_settings hsettings)
  answer config error hsettings hrequested := by
    obtain ⟨last, hrun⟩ := NewArguments.run_of_requested hsettings hrequested
    exact (aborts_of_run h hrun).1
  name config request hsettings hrequested hname := by
    cases hcheck : request.checkName with
    | ok value => exact absurd (checkName_eq_ok_iff_isPlainName.mp hcheck) hname
    | error problem =>
        have hvalidate : request.validate = .error ⟨request.shortName, problem⟩ := by
          rw [Request.validate, hcheck]
          rfl
        obtain ⟨last, hrun⟩ := NewArguments.run_of_invalid hsettings hrequested hvalidate
        exact ⟨problem, (aborts_of_run h hrun).1⟩
  directory config request hsettings hrequested hname := by
    have hbase : request.symbols.fileBase = "CB" ++ request.shortName := rfl
    rw [← hbase]
    exact staysIn h hsettings hrequested (checkName_eq_ok_iff_isPlainName.mpr hname)

/-- A name that would lead out of the output directory comes from the input. -/
theorem isGuarded_dots :
    let words := ["new", "--yes", "-a", "Ada", "--description=A widget."]
    let arguments : NewArguments :=
      ⟨none, [(.author, "Ada"), (.description, "A widget.")], [.yes]⟩
    let today : Date := { year := 2012, month := 1, day := 1 }
    let console : Console := ⟨"/../Widget\n".toUTF8.data.toList, ""⟩
    Invocation.ofWords words = .ok (.new arguments) ∧
      IsGuarded arguments today Disk.workspace console
        ((run today words).run Console.answer Disk.workspace console)
        ((run today words).events Console.answer Disk.workspace console) := by
  intro words arguments today console
  have hwords : Invocation.ofWords words = .ok (.new arguments) := by decide
  exact ⟨hwords, isGuarded hwords today Disk.workspace console⟩

end Program

end Scaffold
