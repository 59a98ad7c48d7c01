import Mathlib.Data.List.Basic
import Scaffold.Proofs.Answers

/-!
# What the program asks

The program asks for the fields that its arguments leave out, and where it would write into a
directory that was there before, it asks once more. Each prompt is answered by the line of its own
number. So the lines that are asked for settle the whole run, and a line that is no text is all that
can go wrong with the input.
-/

namespace Scaffold

namespace Console

def hear (input : List UInt8) : Nat → List Prompt → Heard
  | _, [] => []
  | number, prompt :: rest =>
    match said (line input number) with
    | .error fault => [(prompt, .error fault)]
    | .ok text => (prompt, .ok text) :: hear input (number + 1) rest

end Console

open Console (byLine Heard said line hear)

namespace NewArguments

variable {arguments : NewArguments} {config : Config} {today : Date} {disk : Disk}
  {input : List UInt8} {prompt : Prompt} {heard : Heard} {prompts before behind : List Prompt}

/-! ### What is to be asked, and what comes of it -/

def given? (arguments : NewArguments) : Prompt → Option String
  | .name => arguments.name
  | .author => arguments.value? .author
  | .description => arguments.value? .description
  | .overwrite => none

def missing (arguments : NewArguments) : List Prompt :=
  [.name, .author, .description].filter fun prompt => (arguments.given? prompt).isNone

/-- A field is what an argument says, or what the line says that has the number of its prompt. -/
def field (arguments : NewArguments) (input : List UInt8) (prompt : Prompt) :
    Except AnswerError String :=
  match arguments.given? prompt with
  | some text => .ok text
  | none => (said (line input (arguments.missing.idxOf prompt))).mapError (⟨prompt, ·⟩)

def answered (arguments : NewArguments) (today : Date) (input : List UInt8) :
    Except AnswerError Request := do
  let name ← arguments.field input .name
  let author ← arguments.field input .author
  let description ← arguments.field input .description
  return ⟨name, author, description, today⟩

def AsksOverwrite (arguments : NewArguments) (config : Config) (request : Request) (disk : Disk) :
    Prop :=
  checkName request.shortName = .ok () ∧ arguments.has .dryRun = false ∧
    arguments.has .yes = false ∧
    disk.isDirectory (config.destination arguments.root request.symbols.fileBase) = true

instance (arguments : NewArguments) (config : Config) (request : Request) (disk : Disk) :
    Decidable (arguments.AsksOverwrite config request disk) :=
  inferInstanceAs (Decidable (_ ∧ _ ∧ _ ∧ _))

def asked (arguments : NewArguments) (config : Config) (request : Request) (disk : Disk) :
    List Prompt :=
  arguments.missing ++ if arguments.AsksOverwrite config request disk then [.overwrite] else []

/-- The prompts of a run, as long as the input has an answer to each. -/
def schedule (arguments : NewArguments) (config : Config) (today : Date) (disk : Disk)
    (input : List UInt8) : List Prompt :=
  match arguments.answered today input with
  | .error _ => arguments.missing
  | .ok request => arguments.asked config request disk

/-- The line after the fields decides on an overwrite, unless the arguments do. -/
def decided (arguments : NewArguments) (input : List UInt8) : Except AnswerError Bool :=
  if arguments.has .yes then .ok true
  else ((said (line input arguments.missing.length)).mapError (⟨.overwrite, ·⟩)).map Prompt.isYes

def created : Except (CreationFailure AnswerError) Report → Except RunFailure Report
  | .ok report => .ok report
  | .error (.disk failure) => .error (.disk failure)
  | .error (.confirmation error) => .error (.answer error)

def settled (arguments : NewArguments) (config : Config) (today : Date) (disk : Disk)
    (input : List UInt8) : Except RunFailure Report × Disk :=
  match arguments.answered today input with
  | .error error => (.error (.answer error), disk)
  | .ok request =>
    match request.validate with
    | .error problem => (.error (.name problem), disk)
    | .ok () =>
      let ending := (arguments.creation config request).replied (arguments.decided input) disk
      (created ending.value, ending.disk)

/-! ### Prompts in a row -/

structure Continues (input : List UInt8) (prompts : List Prompt) (heard : Heard) : Prop where
  length : heard.length = prompts.length
  hear : ∀ rest, Console.hear input 0 (prompts ++ rest) =
    heard ++ Console.hear input heard.length rest
  readable : ∀ number < heard.length, ∃ text, said (line input number) = .ok text

theorem Continues.nil : Continues input [] [] where
  length := rfl
  hear _ := rfl
  readable := by simp

theorem Continues.concat {text : String} (h : Continues input prompts heard)
    (hline : said (line input heard.length) = .ok text) :
    Continues input (prompts ++ [prompt]) (heard ++ [(prompt, .ok text)]) where
  length := by simp [h.length]
  hear rest := by
    rw [List.append_assoc, h.hear, List.singleton_append, Console.hear, hline, List.length_append,
      List.append_assoc]
    rfl
  readable := by
    intro number hnumber
    rw [List.length_append, List.length_singleton] at hnumber
    rcases Nat.lt_succ_iff_lt_or_eq.mp hnumber with hlt | rfl
    · exact h.readable number hlt
    · exact ⟨text, hline⟩

inductive Interview {α : Type} (input : List UInt8) (prompts : List Prompt) :
    Except AnswerError α → Heard → Prop where
  | complete {value : α} {heard : Heard} (h : Continues input prompts heard) :
      Interview input prompts (.ok value) heard
  | broken {error : AnswerError} {before behind : List Prompt} {heard : Heard}
      (hprompts : prompts = before ++ error.prompt :: behind) (h : Continues input before heard)
      (hline : said (line input heard.length) = .error error.fault) :
      Interview input prompts (.error error) (heard ++ [(error.prompt, .error error.fault)])

theorem Interview.eq_hear {α : Type} {result : Except AnswerError α}
    (h : Interview input prompts result heard) : heard = Console.hear input 0 prompts := by
  cases h with
  | complete h =>
      have hall := h.hear []
      rw [List.append_nil] at hall
      rw [hall]
      exact (List.append_nil heard).symm
  | broken hprompts h hline => rw [hprompts, h.hear, Console.hear, hline]

/-! ### The fields -/

theorem field_of_given {text : String} (hgiven : arguments.given? prompt = some text) :
    arguments.field input prompt = .ok text := by
  rw [field, hgiven]

theorem field_of_missing (hgiven : arguments.given? prompt = none)
    (hmissing : arguments.missing = before ++ prompt :: behind) (hnew : prompt ∉ before)
    (hlength : heard.length = before.length) :
    arguments.field input prompt =
      (said (line input heard.length)).mapError (⟨prompt, ·⟩) := by
  have hindex : arguments.missing.idxOf prompt = heard.length := by
    rw [hmissing, List.idxOf_append_of_notMem hnew, List.idxOf_cons_self, hlength, Nat.add_zero]
  rw [field, hgiven, hindex]

def unlessGiven (arguments : NewArguments) (prompt : Prompt) : List Prompt :=
  if (arguments.given? prompt).isNone then [prompt] else []

theorem notMem_unlessGiven {asked : Prompt} (hne : asked ≠ prompt) :
    asked ∉ arguments.unlessGiven prompt := by
  unfold unlessGiven
  split <;> simp [hne]

/-- One field more: its prompt is answered by the next line, and what follows goes on from there. -/
theorem run_askUnless_byLine {α : Type}
    {next : Except AnswerError String → Dialogue (Except AnswerError α)}
    {result : String → Except AnswerError α}
    (hmissing : arguments.missing = before ++ (arguments.unlessGiven prompt ++ behind))
    (hnew : prompt ∉ before) (hcontinues : Continues input before heard)
    (herror : ∀ error, next (.error error) = .done (.error error))
    (hnext : ∀ text later, Continues input (before ++ arguments.unlessGiven prompt) later →
      ∃ last, (next (.ok text)).run (byLine input) disk later = ⟨result text, disk, last⟩ ∧
        Interview input arguments.missing (result text) last) :
    ∃ last, ((prompt.askUnless (arguments.given? prompt)).bind next).run (byLine input) disk heard =
        ⟨arguments.field input prompt >>= result, disk, last⟩ ∧
      Interview input arguments.missing (arguments.field input prompt >>= result) last := by
  cases hgiven : arguments.given? prompt with
  | some text =>
      have hnone : arguments.unlessGiven prompt = [] := by simp [unlessGiven, hgiven]
      rw [hnone, List.append_nil] at hnext
      rw [field_of_given hgiven]
      exact hnext text heard hcontinues
  | none =>
      have hasks : arguments.unlessGiven prompt = [prompt] := by simp [unlessGiven, hgiven]
      rw [hasks] at hmissing hnext
      have hask : prompt.ask.run (byLine input) disk heard =
          ⟨(said (line input heard.length)).mapError (⟨prompt, ·⟩), disk,
            heard ++ [(prompt, said (line input heard.length))]⟩ := rfl
      rw [field_of_missing hgiven hmissing hnew hcontinues.length, Prompt.askUnless,
        Script.run_bind, hask]
      cases hline : said (line input heard.length) with
      | error fault =>
          refine ⟨heard ++ [(prompt, .error fault)], ?_, ?_⟩
          · change (next (.error ⟨prompt, fault⟩)).run (byLine input) disk _ = _
            rw [herror]
            rfl
          · exact @Interview.broken α input arguments.missing ⟨prompt, fault⟩ before behind heard
              hmissing hcontinues hline
      | ok text => exact hnext text _ (hcontinues.concat hline)

theorem run_readRequest_byLine (arguments : NewArguments) (today : Date) (input : List UInt8)
    (disk : Disk) :
    ∃ heard, (arguments.readRequest today).run (byLine input) disk [] =
        ⟨arguments.answered today input, disk, heard⟩ ∧
      Interview input arguments.missing (arguments.answered today input) heard := by
  have hmissing : arguments.missing = arguments.unlessGiven .name ++
      (arguments.unlessGiven .author ++ arguments.unlessGiven .description) := by
    simp only [missing, unlessGiven, List.filter_cons, List.filter_nil]
    split <;> split <;> split <;> rfl
  have hdescription : arguments.missing = arguments.unlessGiven .name ++
      arguments.unlessGiven .author ++ (arguments.unlessGiven .description ++ []) := by
    rw [hmissing, List.append_assoc, List.append_nil]
  have hauthor : .author ∉ arguments.unlessGiven .name := notMem_unlessGiven (by simp)
  have hlast : .description ∉ arguments.unlessGiven .name ++ arguments.unlessGiven .author :=
    List.not_mem_append (notMem_unlessGiven (by simp)) (notMem_unlessGiven (by simp))
  unfold readRequest answered
  refine run_askUnless_byLine hmissing List.not_mem_nil .nil (fun _ => rfl) fun _ _ hname => ?_
  rw [List.nil_append] at hname
  refine run_askUnless_byLine hmissing hauthor hname (fun _ => rfl) fun _ _ hboth => ?_
  refine run_askUnless_byLine hdescription hlast hboth (fun _ => rfl) fun _ heard hall => ?_
  refine ⟨heard, rfl, ?_⟩
  rw [List.append_nil] at hdescription
  rw [← hdescription] at hall
  exact .complete hall

/-! ### The overwrite -/

theorem run_confirm_byLine (arguments : NewArguments) (destination : Path) (disk : Disk)
    (hcontinues : Continues input arguments.missing heard) :
    (arguments.confirm destination).run (byLine input) disk heard =
      ⟨arguments.decided input, disk, if arguments.has .yes then heard
        else heard ++ [(.overwrite, said (line input heard.length))]⟩ := by
  unfold confirm decided
  rw [← hcontinues.length]
  cases arguments.has .yes <;> rfl

theorem create_eq_bind (arguments : NewArguments) (config : Config) (request : Request) :
    arguments.create config request =
      ((arguments.creation config request).run arguments.confirm).bind fun result =>
        .done (created result) := by
  unfold create
  change ((arguments.creation config request).run arguments.confirm).bind _ = _
  congr 1
  funext result
  rcases result with (failure | error) | report <;> rfl

theorem created_eq_answer_iff {value : Except (CreationFailure AnswerError) Report}
    {error : AnswerError} :
    created value = .error (.answer error) ↔ value = .error (.confirmation error) := by
  rcases value with (failure | other) | report <;> simp [created]

section Create

variable {request : Request} (hcontinues : Continues input arguments.missing heard)

theorem asked_of_not (hnot : ¬ arguments.AsksOverwrite config request disk) :
    arguments.asked config request disk = arguments.missing := by
  rw [asked, if_neg hnot, List.append_nil]

theorem asked_of_asksOverwrite (hasks : arguments.AsksOverwrite config request disk) :
    arguments.asked config request disk = arguments.missing ++ [.overwrite] := by
  rw [asked, if_pos hasks]

include hcontinues

/-- The line after the fields, as the answer to one more prompt. -/
theorem interview_overwrite (hyes : arguments.has .yes = false) :
    ∃ result : Except AnswerError Unit,
      Interview input (arguments.missing ++ [.overwrite]) result
        (heard ++ [(.overwrite, said (line input heard.length))]) ∧
      ∀ error, arguments.decided input = .error error ↔ result = .error error := by
  have hdecided : arguments.decided input =
      ((said (line input heard.length)).mapError (⟨.overwrite, ·⟩)).map Prompt.isYes := by
    rw [decided, hyes, hcontinues.length]
    rfl
  rw [hdecided]
  cases hline : said (line input heard.length) with
  | error fault =>
      exact ⟨.error ⟨.overwrite, fault⟩,
        @Interview.broken Unit input _ ⟨.overwrite, fault⟩ _ _ heard rfl hcontinues hline,
        fun error => Iff.of_eq (by simp [Except.mapError, Except.map])⟩
  | ok text =>
      exact ⟨.ok (), .complete (hcontinues.concat hline),
        fun error => by simp [Except.mapError, Except.map]⟩

theorem run_create_byLine (hname : request.checkName = .ok ())
    (hroot : .up ∉ arguments.root.components) (hout : .up ∉ config.outputDir.components)
    (disk : Disk) :
    ∃ last, (arguments.create config request).run (byLine input) disk heard =
        ⟨created ((arguments.creation config request).replied (arguments.decided input) disk).value,
          ((arguments.creation config request).replied (arguments.decided input) disk).disk, last⟩ ∧
      ∃ result : Except AnswerError Unit,
        Interview input (arguments.asked config request disk) result last ∧
        ∀ error,
          ((arguments.creation config request).replied (arguments.decided input) disk).value =
            .error (.confirmation error) ↔ result = .error error := by
  have hconfirm := fun disk => run_confirm_byLine arguments
    (arguments.creation config request).destination disk hcontinues
  rw [create_eq_bind, Script.run_bind, Creation.run_of_reply hconfirm disk]
  refine ⟨_, rfl, ?_⟩
  have hnoMore (hnot : ¬ arguments.AsksOverwrite config request disk) :
      Interview input (arguments.asked config request disk) (.ok ()) heard := by
    rw [asked_of_not hnot]
    exact .complete hcontinues
  rcases (arguments.creation config request).replied_cases hname hroot hout
    (arguments.decided input) disk with
    ⟨⟨hwet, hfound⟩, hasked, hvalue⟩ | ⟨hnot, hasked, hvalue⟩
  · simp only [hvalue, if_neg hasked]
    cases hyes : arguments.has .yes with
    | true =>
        have hnot : ¬ arguments.AsksOverwrite config request disk := by
          rintro ⟨_, _, hno, _⟩
          rw [hno] at hyes
          cases hyes
        have hdecided : arguments.decided input = .ok true := if_pos hyes
        exact ⟨.ok (), hnoMore hnot, fun error => by simp [hdecided]⟩
    | false =>
        have hasks : arguments.AsksOverwrite config request disk := ⟨hname, hwet, hyes, hfound⟩
        rw [asked_of_asksOverwrite hasks]
        exact interview_overwrite hcontinues hyes
  · rw [if_pos hasked]
    have hnot' : ¬ arguments.AsksOverwrite config request disk :=
      fun hasks => hnot ⟨hasks.2.1, hasks.2.2.2⟩
    exact ⟨.ok (), hnoMore hnot', fun error => by simp [hvalue error]⟩

end Create

/-! ### The whole run -/

theorem Interview.exists_error_iff {result : Except AnswerError Unit}
    (h : Interview input prompts result heard) :
    (∃ error, result = .error error) ↔
      ∃ number < heard.length, ∃ fault, said (line input number) = .error fault := by
  cases h with
  | complete h =>
      refine ⟨by simp, ?_⟩
      rintro ⟨number, hnumber, fault, hfault⟩
      obtain ⟨text, htext⟩ := h.readable number hnumber
      rw [hfault] at htext
      cases htext
  | @broken error before behind heard hprompts h hline =>
      exact ⟨fun _ => ⟨heard.length, by simp, error.fault, hline⟩, fun _ => ⟨error, rfl⟩⟩

theorem Interview.error {α β : Type} {error : AnswerError}
    (h : @Interview α input prompts (.error error) heard) :
    @Interview β input prompts (.error error) heard := by
  cases h with
  | broken hprompts h hline => exact .broken hprompts h hline

def transcript (arguments : NewArguments) (config : Config) (today : Date) (disk : Disk)
    (input : List UInt8) : Heard :=
  hear input 0 (arguments.schedule config today disk input)

/-- After the settings, what a run comes to is settled by the answers, and so is what it asks. -/
theorem proceed_byLine (hroot : .up ∉ arguments.root.components)
    (hout : .up ∉ config.outputDir.components) (today : Date) (disk : Disk) (input : List UInt8) :
    ∃ last, (arguments.proceed today (.ok config)).run (byLine input) disk [] =
        ⟨(arguments.settled config today disk input).1,
          (arguments.settled config today disk input).2, last⟩ ∧
      ∃ result : Except AnswerError Unit,
        Interview input (arguments.schedule config today disk input) result last ∧
        ∀ error, (arguments.settled config today disk input).1 = .error (.answer error) ↔
          result = .error error := by
  obtain ⟨first, hfirst, hinterview⟩ := arguments.run_readRequest_byLine today input disk
  rw [proceed, Script.run_bind, hfirst]
  cases hanswered : arguments.answered today input with
  | error error =>
      rw [hanswered] at hinterview
      rw [settled, schedule, hanswered]
      exact ⟨first, rfl, .error error, hinterview.error, by simp⟩
  | ok request =>
      rw [hanswered] at hinterview
      obtain ⟨hcontinues⟩ := hinterview
      have hschedule : arguments.schedule config today disk input =
          arguments.asked config request disk := by rw [schedule, hanswered]
      rw [hschedule]
      cases hvalid : request.validate with
      | error problem =>
          have hsettled : arguments.settled config today disk input =
              (.error (.name problem), disk) := by simp only [settled, hanswered, hvalid]
          have hnot : ¬ arguments.AsksOverwrite config request disk := by
            rintro ⟨hname, _⟩
            rw [Request.validate_eq_ok_iff.mpr hname] at hvalid
            cases hvalid
          rw [hsettled, asked_of_not hnot, judge, hvalid]
          exact ⟨first, rfl, .ok (), .complete hcontinues, by simp⟩
      | ok value =>
          have hsettled : arguments.settled config today disk input =
              (created ((arguments.creation config request).replied
                (arguments.decided input) disk).value,
              ((arguments.creation config request).replied
                (arguments.decided input) disk).disk) := by simp only [settled, hanswered, hvalid]
          have hname : request.checkName = .ok () := Request.validate_eq_ok_iff.mp hvalid
          obtain ⟨last, hcreate, result, hall, hfailed⟩ :=
            run_create_byLine hcontinues hname hroot hout disk
          rw [hsettled, judge, hvalid]
          simp only [created_eq_answer_iff]
          exact ⟨last, hcreate, result, hall, hfailed⟩

theorem run_byLine (hsettings : arguments.settings disk = .ok config)
    (hroot : .up ∉ arguments.root.components) (hout : .up ∉ config.outputDir.components)
    (today : Date) (input : List UInt8) :
    (arguments.run today).run (byLine input) disk [] =
        ⟨(arguments.settled config today disk input).1,
          (arguments.settled config today disk input).2,
          arguments.transcript config today disk input⟩ ∧
      ((∃ error, (arguments.settled config today disk input).1 = .error (.answer error)) ↔
        ∃ number < (arguments.transcript config today disk input).length,
          ∃ fault, said (line input number) = .error fault) := by
  obtain ⟨last, hrun, result, hinterview, hfailed⟩ :=
    arguments.proceed_byLine hroot hout today disk input
  have hlast : last = arguments.transcript config today disk input := hinterview.eq_hear
  rw [run_eq_bind, Script.run_bind, run_loadConfig, hsettings, hrun, ← hlast]
  refine ⟨rfl, ?_⟩
  rw [← hinterview.exists_error_iff]
  exact exists_congr hfailed

/-- The lines that a run has heard settle the request. -/
theorem answered_congr {other : List UInt8} (hsettings : arguments.settings disk = .ok config)
    (hroot : .up ∉ arguments.root.components) (hout : .up ∉ config.outputDir.components)
    (hlines : ∀ number < (arguments.transcript config today disk input).length,
      line other number = line input number) :
    arguments.answered today other = arguments.answered today input := by
  obtain ⟨first, hfirst, _⟩ := arguments.run_readRequest_byLine today input disk
  obtain ⟨_, hother, _⟩ := arguments.run_readRequest_byLine today other disk
  have hrun := (run_byLine hsettings hroot hout today input).1
  rw [run_eq_bind, Script.run_bind, run_loadConfig, hsettings, proceed, Script.run_bind, hfirst]
    at hrun
  have hle := (arguments.judge config (arguments.answered today input)).length_le_state input disk
    first
  rw [hrun] at hle
  have hsame : (arguments.readRequest today).run (byLine other) disk [] =
      (arguments.readRequest today).run (byLine input) disk [] := by
    apply Script.run_byLine_congr
    rw [hfirst]
    exact fun number hnumber => hlines number (Nat.lt_of_lt_of_le hnumber hle)
  rw [hfirst, hother, Script.Ending.mk.injEq] at hsame
  exact hsame.1

end NewArguments

/-! ### On the console -/

theorem Console.exists_said_eq_error_iff {line : List UInt8} :
    (∃ fault, said line = .error fault) ↔ String.fromUTF8? ⟨line.toArray⟩ = none := by
  unfold said
  cases String.fromUTF8? ⟨line.toArray⟩ <;> simp

structure RunsAlike (arguments : NewArguments) (config : Config) (today : Date) (disk : Disk)
    (run : Console → Script.Ending Console Finish) (left right : Console) : Prop where
  request : arguments.answered today left.input = arguments.answered today right.input
  transcript : arguments.transcript config today disk left.input =
    arguments.transcript config today disk right.input
  value : (run left).value = (run right).value
  disk : (run left).disk = (run right).disk
  output : (run left).state.output = (run right).state.output

structure IsAnsweredByLine (arguments : NewArguments) (config : Config) (today : Date) (disk : Disk)
    (run : Console → Script.Ending Console Finish) (console : Console)
    (events : List (Event Prompt (Except Fault String))) : Prop where
  heard : events.filterMap Event.heard? = arguments.transcript config today disk console.input
  printed : (run console).state.output = console.output ++
    String.join ((arguments.transcript config today disk console.input).map (·.1.question))
  unread : (run console).state.input = Console.following console.input
    (arguments.transcript config today disk console.input).length
  settled : ((run console).value, (run console).disk) =
    ((Program.finish (arguments.settled config today disk console.input).1),
      (arguments.settled config today disk console.input).2)
  failed : (∃ error, (run console).value = .failed (.answer error)) ↔
    ∃ number < (arguments.transcript config today disk console.input).length,
      String.fromUTF8? ⟨(line console.input number).toArray⟩ = none
  alike : ∀ other : Console, other.output = console.output →
    (∀ number < (arguments.transcript config today disk console.input).length,
      line other.input number = line console.input number) →
    RunsAlike arguments config today disk run other console

namespace Program

variable {words : List String} {arguments : NewArguments} {config : Config} {disk : Disk}

theorem finish_eq_answer_iff {result : Except RunFailure Report} {error : AnswerError} :
    finish result = .failed (.answer error) ↔ result = .error (.answer error) := by
  cases result <;> simp [finish]

end Program

end Scaffold
