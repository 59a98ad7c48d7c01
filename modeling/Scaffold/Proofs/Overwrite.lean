import Scaffold.Proofs.Interview
import Scaffold.Proofs.Questions

/-!
# Which input overwrites

The question about an overwrite is answered by the next line of what is left of the input. The bytes
that are read as a yes are listed here, and a run that has put the question and gets any other bytes
comes to its end without having written a file.
-/

namespace Scaffold

namespace Console

variable {input piece : List UInt8} {text : List Char}

def letterY : UInt8 := 89

def carriageReturn : UInt8 := 13

/-- The input begins with a line that is the letter alone, or it is the letter and nothing more. -/
def SaysYes (input : List UInt8) : Prop :=
  [letterY, lineFeed] <+: input ∨ [letterY, carriageReturn, lineFeed] <+: input ∨ input = [letterY]

instance (input : List UInt8) : Decidable (SaysYes input) :=
  inferInstanceAs (Decidable (_ ∨ _ ∨ _))

theorem dropEnd_eq_singleton_iff {last c : Char} (hne : c ≠ last) :
    dropEnd last text = [c] ↔ text = [c] ∨ text = [c, last] := by
  unfold dropEnd
  split
  · next h =>
    obtain ⟨init, rfl⟩ := List.getLast?_eq_some_iff.mp h
    rw [List.dropLast_concat]
    constructor
    · rintro rfl
      exact Or.inr rfl
    · rintro (hone | htwo)
      · obtain ⟨rfl, hlast⟩ := List.append_eq_singleton_iff.mp hone |>.resolve_right (by simp)
        exact absurd (List.singleton_inj.mp hlast).symm hne
      · exact List.append_cancel_right (htwo.trans rfl)
  · next h =>
    refine (or_iff_left ?_).symm
    rintro rfl
    exact h rfl

theorem said_eq_yes_iff :
    said piece = .ok "Y" ↔ piece = [letterY] ∨ piece = [letterY, carriageReturn] := by
  constructor
  · intro h
    unfold said at h
    cases htext : String.fromUTF8? ⟨piece.toArray⟩ with
    | none => simp [htext] at h
    | some text =>
        rw [htext] at h
        have hends : dropEnd '\r' text.toList = ['Y'] := by
          have hsaid := Except.ok.inj h
          rw [← String.toList_inj] at hsaid
          simpa using hsaid
        -- Text comes from no other bytes than its own, so the two texts are two pieces of input.
        have hpiece : piece = text.toByteArray.data.toList := by rw [toByteArray_of_fromUTF8? htext]
        rcases (dropEnd_eq_singleton_iff (by decide)).mp hends with hone | htwo
        · rw [String.toList_inj.mp (hone.trans (by decide : ['Y'] = "Y".toList))] at hpiece
          exact Or.inl hpiece
        · rw [String.toList_inj.mp (htwo.trans (by decide : ['Y', '\r'] = "Y\r".toList))] at hpiece
          exact Or.inr hpiece
  · rintro (rfl | rfl) <;> decide +kernel

theorem reply_splitLine_line (h : lineFeed ∉ piece) (rest : List UInt8) :
    reply (splitLine (piece ++ lineFeed :: rest)).1 = said piece := by
  rw [splitLine_append_cons h, reply_concat]

theorem reply_splitLine_last (h : lineFeed ∉ piece) : reply (splitLine piece).1 = said piece := by
  rw [splitLine_of_notMem h, reply_eq_said h]

/-- The next line is a yes with or without its end, and with or without a carriage return before
that. -/
theorem reply_splitLine_eq_yes_iff :
    reply (splitLine input).1 = .ok "Y" ↔
      SaysYes input ∨ input = [letterY, carriageReturn] := by
  have hletter : lineFeed ∉ [letterY] := by decide
  have hboth : lineFeed ∉ [letterY, carriageReturn] := by decide
  constructor
  · intro h
    by_cases hfeed : lineFeed ∈ input
    · obtain ⟨piece, rest, rfl, hpiece⟩ := List.eq_append_cons_of_mem hfeed
      rw [reply_splitLine_line hpiece, said_eq_yes_iff] at h
      rcases h with rfl | rfl
      · exact Or.inl (Or.inl ⟨rest, rfl⟩)
      · exact Or.inl (Or.inr (Or.inl ⟨rest, rfl⟩))
    · rw [reply_splitLine_last hfeed, said_eq_yes_iff] at h
      rcases h with rfl | rfl
      · exact Or.inl (Or.inr (Or.inr rfl))
      · exact Or.inr rfl
  · rintro ((⟨rest, rfl⟩ | ⟨rest, rfl⟩ | rfl) | rfl)
    · exact (reply_splitLine_line hletter rest).trans (said_eq_yes_iff.mpr (Or.inl rfl))
    · exact (reply_splitLine_line hboth rest).trans (said_eq_yes_iff.mpr (Or.inr rfl))
    · exact (reply_splitLine_last hletter).trans (said_eq_yes_iff.mpr (Or.inl rfl))
    · exact (reply_splitLine_last hboth).trans (said_eq_yes_iff.mpr (Or.inr rfl))

end Console

/-! ### Where the question is put -/

def Call.SparesFiles : Call → Prop :=
  Call.IsWithin (fun _ => True) fun _ _ => False

def Prompt.verdict (reply : Except Fault String) : Except AnswerError Bool :=
  (reply.mapError (⟨.overwrite, ·⟩)).map isYes

namespace Creation

variable {Query Answer ε : Type} {question : Query}

theorem neverAsks_writeFiles (creation : Creation) (claim : Claim) :
    (creation.writeFiles claim : Script Query Answer (Except (CreationFailure ε) Report)).NeverAsks
      question := by
  unfold writeFiles
  rw [← Blueprint.lift_write]
  refine Script.NeverAsks.bind (Script.neverAsks_lift _) fun written => ?_
  split <;> exact Script.neverAsks_done _

theorem neverAsks_conclude (creation : Creation) (reply : Except ε Bool) :
    (creation.conclude reply : Script Query Answer _).NeverAsks question := by
  rcases reply with error | ⟨_ | _⟩
  · exact Script.neverAsks_done _
  · exact Script.neverAsks_done _
  · exact creation.neverAsks_writeFiles .existing

/-- A creation asks after the claim of its destination, and the answer concludes it. -/
theorem puts_run (creation : Creation) {confirm : Path → Script Query Answer (Except ε Bool)}
    {verdict : Answer → Except ε Bool}
    (hconfirm : (confirm creation.destination).Puts question Call.SparesFiles
      fun rest => rest = fun reply => .done (verdict reply)) :
    (creation.run confirm).Puts question Call.SparesFiles
      fun next => next = fun reply => creation.conclude (verdict reply) := by
  cases hdry : creation.isDryRun with
  | true =>
      rw [run_of_isDryRun hdry]
      exact (Script.neverAsks_done _).puts
  | false =>
      rw [run_eq_bind hdry]
      have hclaim : (Directory.claim creation.destination : Script Query Answer _).Only
          Call.SparesFiles := (Directory.only_claim trivial fun _ _ => trivial).isWithin
      have hsilent : (Directory.claim creation.destination : Script Query Answer _).NeverAsks
          question := by
        rw [← Directory.lift_claim]
        exact Script.neverAsks_lift _
      refine hsilent.bind_puts hclaim fun claimed => ?_
      rcases claimed with failure | ⟨_ | _⟩
      case error => exact (Script.neverAsks_done _).puts
      case ok.created => exact (creation.neverAsks_writeFiles .created).puts
      case ok.existing =>
        apply hconfirm.bind creation.neverAsks_conclude
        rintro rest rfl
        rfl

end Creation

namespace NewArguments

theorem neverAsks_askUnless {prompt : Prompt} (hne : prompt ≠ .overwrite) (given : Option String) :
    (prompt.askUnless given).NeverAsks .overwrite := by
  cases given with
  | some answer => exact Script.neverAsks_done _
  | none => exact (Script.neverAsks_query hne).bind fun _ => Script.neverAsks_done _

theorem neverAsks_readRequest (arguments : NewArguments) (today : Date) :
    (arguments.readRequest today).NeverAsks .overwrite := by
  refine (neverAsks_askUnless (by decide) _).bind fun name => ?_
  split
  · exact Script.neverAsks_done _
  · refine (neverAsks_askUnless (by decide) _).bind fun author => ?_
    split
    · exact Script.neverAsks_done _
    · refine (neverAsks_askUnless (by decide) _).bind fun description => ?_
      split <;> exact Script.neverAsks_done _

theorem neverAsks_loadConfig (arguments : NewArguments) :
    arguments.loadConfig.NeverAsks .overwrite := by
  have hload (file : Path) : (Config.load file : Dialogue _).NeverAsks .overwrite := by
    refine (Script.neverAsks_perform _).bind fun read => ?_
    split <;> exact Script.neverAsks_done _
  have hdiscover (root : Path) : (Config.discover root : Dialogue _).NeverAsks .overwrite := by
    refine (Script.neverAsks_perform _).bind fun found => ?_
    split
    · exact hload _
    · exact Script.neverAsks_done _
  unfold loadConfig
  cases arguments.configFile? with
  | some file => exact (hload file).bind fun _ => Script.neverAsks_done _
  | none => exact (hdiscover _).bind fun _ => Script.neverAsks_done _

theorem puts_confirm (arguments : NewArguments) (destination : Path) :
    (arguments.confirm destination).Puts .overwrite Call.SparesFiles
      fun rest => rest = fun reply => .done (Prompt.verdict reply) := by
  unfold confirm
  split
  · exact (Script.neverAsks_done _).puts
  · intro past next hunfolds
    cases hunfolds with
    | nil => exact ⟨by simp, rfl⟩
    | ask h => exact absurd h (Script.neverAsks_done _ _ _)

def afterReply (creation : Creation) (reply : Except Fault String) :
    Dialogue (Except RunFailure Report) :=
  (creation.conclude (Prompt.verdict reply)).bind fun result => .done (created result)

theorem puts_create (arguments : NewArguments) (config : Config) (request : Request) :
    (arguments.create config request).Puts .overwrite Call.SparesFiles
      fun next => next = afterReply (arguments.creation config request) := by
  rw [create_eq_bind]
  have hcreation := (arguments.creation config request).puts_run (arguments.puts_confirm _)
  apply hcreation.bind fun _ => Script.neverAsks_done _
  rintro rest rfl
  rfl

theorem puts_run (arguments : NewArguments) (today : Date) :
    (arguments.run today).Puts .overwrite Call.SparesFiles
      fun next => ∃ creation, next = afterReply creation := by
  rw [run_eq_bind]
  refine arguments.neverAsks_loadConfig.bind_puts arguments.readsOnly_loadConfig.within
    fun loaded => ?_
  cases loaded with
  | error error => exact (Script.neverAsks_done _).puts
  | ok config =>
      refine (arguments.neverAsks_readRequest today).bind_puts
        (arguments.readsOnly_readRequest today).within fun answers => ?_
      cases answers with
      | error error => exact (Script.neverAsks_done _).puts
      | ok request =>
          rw [judge]
          split
          · exact (Script.neverAsks_done _).puts
          · exact (arguments.puts_create config request).mono fun next h => ⟨_, h⟩

end NewArguments

/-! ### What comes of the answer -/

namespace Finish

/-- The run went on to write into the directory that it had found. -/
def IsOverwrite (finish : Finish) : Prop :=
  (∃ report files, finish = .reported report ∧ report.outcome = .written false files) ∨
    ∃ failure, finish = .failed (.disk failure)

def IsRefusal (finish : Finish) : Prop :=
  (∃ report, finish = .reported report ∧ report.outcome = .declined) ∨
    ∃ fault, finish = .failed (.answer ⟨.overwrite, fault⟩)

theorem IsRefusal.not_isOverwrite {finish : Finish} (h : finish.IsRefusal) :
    ¬ finish.IsOverwrite := by
  rcases h with ⟨report, rfl, hdeclined⟩ | ⟨fault, rfl⟩
  · simp [IsOverwrite, hdeclined]
  · simp [IsOverwrite]

end Finish

namespace Program

variable {reply : Except Fault String}

theorem verdict_eq_true_iff : Prompt.verdict reply = .ok true ↔ reply = .ok "Y" := by
  cases reply with
  | error fault => simp [Prompt.verdict, Except.mapError, Except.map]
  | ok text => simp [Prompt.verdict, Except.mapError, Except.map, Prompt.isYes_iff]

def afterReply (creation : Creation) (reply : Except Fault String) : Dialogue Finish :=
  (NewArguments.afterReply creation reply).bind fun result => .done (finish result)

theorem afterReply_of_ne (creation : Creation) (h : reply ≠ .ok "Y") :
    ∃ last, afterReply creation reply = .done last ∧ last.IsRefusal := by
  cases reply with
  | error fault =>
      exact ⟨.failed (.answer ⟨.overwrite, fault⟩), rfl, Or.inr ⟨fault, rfl⟩⟩
  | ok text =>
      have hno : Prompt.isYes text = false := by
        rw [Bool.eq_false_iff]
        exact fun hyes => h (congrArg Except.ok (Prompt.isYes_iff.mp hyes))
      have hverdict : Prompt.verdict (.ok text) = .ok false := congrArg Except.ok hno
      refine ⟨.reported (creation.report .declined), ?_, Or.inl ⟨_, rfl, rfl⟩⟩
      rw [afterReply, NewArguments.afterReply, hverdict]
      rfl

theorem isOverwrite_wrote (creation : Creation) (written : Except DiskFailure (List Path)) :
    (finish (NewArguments.created (creation.wrote .existing written))).IsOverwrite := by
  cases written with
  | error failure => exact Or.inr ⟨failure, rfl⟩
  | ok files => exact Or.inl ⟨_, files, rfl, rfl⟩

/-- With it the files are written, unless the disk fails. -/
theorem isOverwrite_afterReply (creation : Creation) (disk : Disk) (console : Console) :
    ((afterReply creation (.ok "Y")).run Console.answer disk console).value.IsOverwrite := by
  have hverdict : Prompt.verdict (.ok "Y") = .ok true := verdict_eq_true_iff.mpr rfl
  rw [afterReply, NewArguments.afterReply, hverdict, Script.run_bind, Script.run_bind,
    Creation.conclude, Creation.run_writeFiles, Script.run, Script.run]
  generalize ((creation.blueprint.write creation.destination).runSilent disk).1 = written
  exact isOverwrite_wrote creation written

theorem puts_run (today : Date) (words : List String) :
    (run today words).Puts .overwrite Call.SparesFiles
      fun next => ∃ creation, next = afterReply creation := by
  rcases hwords : Invocation.ofWords words with (_ | _ | misuse) | (arguments | shell)
  case ok.new =>
    rw [run_eq_bind hwords]
    apply (arguments.puts_run today).bind fun _ => Script.neverAsks_done _
    rintro rest ⟨creation, rfl⟩
    exact ⟨creation, rfl⟩
  all_goals
    rw [run, hwords]
    exact (Script.neverAsks_done _).puts

section Asked

variable {today : Date} {words : List String} {disk : Disk} {console now : Console}
  (hasked : (.overwrite, now) ∈ (run today words).questions Console.answer disk console)

include hasked

/-- A run that puts the question has written nothing yet, and goes on from the reply. -/
theorem exists_afterReply_of_asked (hreply : (Console.answer .overwrite now).1 = reply) :
    ∃ past creation between last, (∀ c reply, .called c reply ∈ past → c.SparesFiles) ∧
      (run today words).events Console.answer disk console = past ++ .asked .overwrite reply ::
        (afterReply creation reply).events Console.answer between last ∧
      (run today words).run Console.answer disk console =
        (afterReply creation reply).run Console.answer between last := by
  obtain ⟨past, next, between, hunfolds, hevents, hrun⟩ := Script.exists_of_mem_questions hasked
  obtain ⟨hpast, creation, rfl⟩ := puts_run today words past next hunfolds
  rw [hreply] at hevents hrun
  exact ⟨past, creation, between, _, hpast, hevents, hrun⟩

theorem isOverwrite_of_yes (hyes : (Console.answer .overwrite now).1 = .ok "Y") :
    ((run today words).run Console.answer disk console).value.IsOverwrite := by
  obtain ⟨_, creation, between, last, _, _, hrun⟩ := exists_afterReply_of_asked hasked hyes
  rw [hrun]
  exact isOverwrite_afterReply creation between last

theorem isRefusal_of_ne (hno : (Console.answer .overwrite now).1 ≠ .ok "Y") :
    ((run today words).run Console.answer disk console).value.IsRefusal ∧
      ∀ path content reply, .called (.writeFile path content) reply ∉
        (run today words).events Console.answer disk console := by
  obtain ⟨past, creation, _, _, hpast, hevents, hrun⟩ := exists_afterReply_of_asked hasked rfl
  obtain ⟨last, hlast, hrefuses⟩ := afterReply_of_ne creation hno
  rw [hlast, Script.events] at hevents
  rw [hlast, Script.run] at hrun
  refine ⟨hrun ▸ hrefuses, fun path content reply hmem => ?_⟩
  rw [hevents] at hmem
  rcases List.mem_append.mp hmem with hmem | hmem
  · exact hpast _ reply hmem
  · cases List.mem_singleton.mp hmem

end Asked

/-- **What overwrites.** The question about an overwrite is answered yes exactly if what is left of
the input says yes: it begins with a line that is the letter `Y` alone, or it is this letter and
nothing more. One input besides is taken for a yes, the letter with a carriage return and nothing
more. A run that has put the question goes on to write exactly then. With any other input it
declines, or fails for want of an answer, and no file is written in all of it. -/
theorem overwrites_iff_saysYes (disk : Disk) (now : Console) :
    let yes := Console.SaysYes now.input ∨ now.input = [Console.letterY, Console.carriageReturn]
    ((Prompt.askOverwrite.run Console.answer disk now).value = .ok true ↔ yes) ∧
    ∀ (today : Date) (words : List String) (disk : Disk) (console : Console),
      (.overwrite, now) ∈ (run today words).questions Console.answer disk console →
        (((run today words).run Console.answer disk console).value.IsOverwrite ↔ yes) ∧
        (((run today words).run Console.answer disk console).value.IsRefusal ↔ ¬ yes) ∧
        (¬ yes → ∀ path content reply, .called (.writeFile path content) reply ∉
          (run today words).events Console.answer disk console) := by
  intro yes
  have hreply : (Console.answer .overwrite now).1 = .ok "Y" ↔ yes :=
    Console.reply_splitLine_eq_yes_iff
  constructor
  · have hask : (Prompt.askOverwrite.run Console.answer disk now).value =
        Prompt.verdict (Console.answer .overwrite now).1 := rfl
    rw [hask, verdict_eq_true_iff, hreply]
  intro today words disk console hasked
  by_cases hyes : yes
  case pos =>
    have hwrites := isOverwrite_of_yes hasked (hreply.mpr hyes)
    exact ⟨iff_of_true hwrites hyes,
      iff_of_false (fun hrefuses => hrefuses.not_isOverwrite hwrites) (not_not.mpr hyes),
      fun hno => absurd hyes hno⟩
  case neg =>
    obtain ⟨hrefuses, hspares⟩ := isRefusal_of_ne hasked (mt hreply.mp hyes)
    exact ⟨iff_of_false hrefuses.not_isOverwrite hyes, iff_of_true hrefuses hyes, fun _ => hspares⟩

/-- The letter is on the line, but not alone. -/
theorem overwrites_iff_saysYes_blank :
    let words := ["new", "-a", "Ada", "-d", "A widget.", "-r", "."]
    let today : Date := { year := 2012, month := 1, day := 1 }
    let disk := Disk.workspace.set "cbgen.toml" ["workspace"]
      (.file "output_dir = \".\"".toUTF8) (by decide)
    let home := disk.set "CBWidget" ["workspace"] .directory (by decide)
    let console : Console := ⟨"Widget\n Y\n".toUTF8.data.toList, ""⟩
    let now : Console := ⟨" Y\n".toUTF8.data.toList, Prompt.name.question⟩
    (.overwrite, now) ∈ (run today words).questions Console.answer home console ∧
      ¬ (Console.SaysYes now.input ∨
        now.input = [Console.letterY, Console.carriageReturn]) ∧
      ((run today words).run Console.answer home console).value.IsRefusal := by
  intro words today disk home console now
  have hasked : (.overwrite, now) ∈ (run today words).questions Console.answer home console := by
    decide +kernel
  have hno : ¬ (Console.SaysYes now.input ∨
      now.input = [Console.letterY, Console.carriageReturn]) := by decide +kernel
  obtain ⟨_, hrun⟩ := overwrites_iff_saysYes home now
  exact ⟨hasked, hno, (hrun today words home console hasked).2.1.mpr hno⟩

/-- A carriage return that ends no line is taken off as if it did, so with this input the files are
written though it does not say yes. -/
theorem overwrites_on_lone_return :
    let words := ["new", "Widget", "-a", "Ada", "-d", "A widget.", "-r", "."]
    let today : Date := { year := 2012, month := 1, day := 1 }
    let disk := Disk.workspace.set "cbgen.toml" ["workspace"]
      (.file "output_dir = \".\"".toUTF8) (by decide)
    let home := disk.set "CBWidget" ["workspace"] .directory (by decide)
    let console : Console := ⟨[Console.letterY, Console.carriageReturn], ""⟩
    ¬ Console.SaysYes console.input ∧
      (Prompt.askOverwrite.run Console.answer home console).value = .ok true ∧
      (.overwrite, console) ∈ (run today words).questions Console.answer home console ∧
      ∃ report files, ((run today words).run Console.answer home console).value =
        .reported report ∧ report.outcome = .written false files := by
  intro words today disk home console
  have hasked : (.overwrite, console) ∈
      (run today words).questions Console.answer home console := by decide +kernel
  have hreply : (Console.answer .overwrite console).1 = .ok "Y" := by decide +kernel
  refine ⟨by decide, verdict_eq_true_iff.mpr hreply, hasked, ?_⟩
  rcases isOverwrite_of_yes hasked hreply with hwritten | ⟨failure, hfailed⟩
  · exact hwritten
  · have hexit : ((run today words).run Console.answer home console).value.exitCode = 0 := by
      decide +kernel
    rw [hfailed] at hexit
    cases hexit

end Program

end Scaffold
