import Scaffold.Proofs.Consent
import Scaffold.Proofs.Contract

/-!
# What a creation touches

However a creation ends, the disk differs from what it was in directories on the way to its two
files, and in these files. They are touched only in a directory that is new, or with consent, and
the source never before the whole header.
-/

namespace Scaffold

namespace Creation

variable {Query Answer ε σ : Type} {creation : Creation} {disk after : Disk}

def MayMake (creation : Creation) (path : Path) : Prop :=
  path.IsPrefixOf creation.destination ∨
    path.IsPrefixOf (creation.blueprint.headerPath creation.destination) ∨
    path.IsPrefixOf (creation.blueprint.sourcePath creation.destination)

def MayWrite (creation : Creation) (path : Path) (content : ByteArray) : Prop :=
  (path = creation.blueprint.headerPath creation.destination ∧
      content = creation.blueprint.render.header.toUTF8) ∨
    (path = creation.blueprint.sourcePath creation.destination ∧
      content = creation.blueprint.render.source.toUTF8)

/-! ### The calls of a creation -/

theorem mayMake_of_mem_ancestors {path stem : Path} (hpath : creation.MayMake path)
    (hstem : stem ∈ path.ancestors) : creation.MayMake stem := by
  have hprefix := (Path.isAncestorOf_of_mem_ancestors hstem).isPrefix
  exact hpath.imp hprefix.trans (Or.imp hprefix.trans hprefix.trans)

structure IsAllowed (creation : Creation) (made : Path → Prop)
    (written : Path → ByteArray → Prop) : Prop where
  destination : made creation.destination
  ancestors : ∀ stem ∈ creation.destination.ancestors, made stem
  headerAncestors :
    ∀ stem ∈ (creation.blueprint.headerPath creation.destination).ancestors, made stem
  sourceAncestors :
    ∀ stem ∈ (creation.blueprint.sourcePath creation.destination).ancestors, made stem
  header : written (creation.blueprint.headerPath creation.destination)
    creation.blueprint.render.header.toUTF8
  source : written (creation.blueprint.sourcePath creation.destination)
    creation.blueprint.render.source.toUTF8

section Allowed

variable {made : Path → Prop} {written : Path → ByteArray → Prop}

theorem IsAllowed.only_writeFiles (h : creation.IsAllowed made written) (claim : Claim) :
    (creation.writeFiles claim : Script Query Answer (Except (CreationFailure ε) Report)).Only
      (Call.IsBuilding made written) := by
  unfold writeFiles Blueprint.write
  refine Script.Only.bind (Script.Only.bind (File.only_write h.header h.headerAncestors)
    fun _ => ?source) fun _ => ?done
  case source =>
    split
    · exact .done
    · refine Script.Only.bind (File.only_write h.source h.sourceAncestors) fun _ => ?_
      split <;> exact .done
  case done => split <;> exact .done

/-- The calls of a creation, if its confirmation makes no others. -/
theorem IsAllowed.only_run (h : creation.IsAllowed made written)
    {confirm : Path → Script Query Answer (Except ε Bool)} {permits : Call → Prop}
    (hpermits : ∀ c : Call, c.IsBuilding made written → permits c)
    (hconfirm : (confirm creation.destination).Only permits) :
    (creation.run confirm).Only permits := by
  cases hdry : creation.isDryRun with
  | true =>
      rw [run_of_isDryRun hdry]
      exact .done
  | false =>
      rw [run_eq_bind hdry]
      have hclaim : (Directory.claim creation.destination : Script Query Answer _).Only permits :=
        (Directory.only_claim h.destination h.ancestors).mono hpermits
      refine Script.Only.bind hclaim fun claimed => ?_
      rcases claimed with failure | ⟨_ | _⟩
      · exact .done
      · rw [proceed]
        exact (h.only_writeFiles .created).mono hpermits
      · rw [proceed]
        refine Script.Only.bind hconfirm fun answer => ?_
        rcases answer with error | ⟨_ | _⟩
        · exact .done
        · exact .done
        · rw [conclude]
          exact (h.only_writeFiles .existing).mono hpermits

end Allowed

theorem isAllowed_may (creation : Creation) :
    creation.IsAllowed creation.MayMake creation.MayWrite where
  destination := Or.inl (.refl _)
  ancestors _ := mayMake_of_mem_ancestors (Or.inl (.refl _))
  headerAncestors _ := mayMake_of_mem_ancestors (Or.inr (Or.inl (.refl _)))
  sourceAncestors _ := mayMake_of_mem_ancestors (Or.inr (Or.inr (.refl _)))
  header := Or.inl ⟨rfl, rfl⟩
  source := Or.inr ⟨rfl, rfl⟩

theorem only_run (creation : Creation) :
    (creation.run Script.query : Script Path (Except ε Bool) _).Only
      (Call.IsWithin creation.MayMake creation.MayWrite) :=
  creation.isAllowed_may.only_run (fun _ => Call.IsBuilding.isWithin) (.query _)

/-! ### Header first -/

def WritesSource (creation : Creation) (c : Call) : Prop :=
  ∃ content, c = .writeFile (creation.blueprint.sourcePath creation.destination) content

def HeaderWritten (creation : Creation) (past : List (Event Query Answer)) : Prop :=
  .called (.writeFile (creation.blueprint.headerPath creation.destination)
    creation.blueprint.render.header.toUTF8) (.ok ()) ∈ past

theorem writeFiles_awaits_header (claim : Claim) (first : List (Event Query Answer)) :
    (creation.writeFiles claim : Script Query Answer (Except (CreationFailure ε) Report)).Awaits
      (fun second => creation.HeaderWritten (first ++ second)) creation.WritesSource := by
  unfold writeFiles Blueprint.write
  refine Script.Awaits.bind (Script.Awaits.bind ?header ?source) ?done
  case header =>
    have honly : (File.write (creation.blueprint.headerPath creation.destination)
        creation.blueprint.render.header.toUTF8 : Script Query Answer _).Only
        (Call.IsWithin (fun _ => True)
          fun path _ => path = creation.blueprint.headerPath creation.destination) :=
      (File.only_write rfl fun _ _ => trivial).isWithin
    -- The header is another file, so writing it is no call that would have to wait.
    refine honly.awaits ?_
    rintro c hwithin ⟨content, rfl⟩
    exact headerPath_ne_sourcePath creation creation.destination hwithin.symm
  case source =>
    intro second written hwritten
    cases written with
    | error failure => exact Script.awaits_done _
    | ok _ =>
        refine .of_guard _ fun third => ?_
        have hmem := File.mem_of_unfolds_write hwritten
        exact List.mem_append_right first (List.mem_append_left third hmem)
  case done =>
    intro second written _
    cases written with
    | error failure => exact Script.awaits_done _
    | ok files => exact Script.awaits_done _

theorem run_awaits_header (creation : Creation) :
    (creation.run Script.query : Script Path (Except ε Bool) _).Awaits creation.HeaderWritten
      creation.WritesSource := by
  cases hdry : creation.isDryRun with
  | true =>
      rw [run_of_isDryRun hdry]
      exact Script.awaits_done _
  | false =>
      rw [run_eq_bind hdry]
      have hclaim : ∀ c, creation.WritesSource c → ∃ path content, c = .writeFile path content :=
        fun _ ⟨content, hc⟩ => ⟨_, content, hc⟩
      refine Script.Awaits.bind (Directory.claim_awaits hclaim _) fun first claimed _ => ?_
      rcases claimed with failure | ⟨_ | _⟩
      · exact Script.awaits_done _
      · rw [proceed]
        exact writeFiles_awaits_header .created first
      · rw [proceed]
        refine Script.Awaits.bind (Script.query_awaits _) fun second answer _ => ?_
        rcases answer with error | ⟨_ | _⟩
        · exact Script.awaits_done _
        · exact Script.awaits_done _
        · rw [conclude]
          simpa only [List.append_assoc] using
            writeFiles_awaits_header .existing (first ++ second)

/-! ### Confinement -/

def events (creation : Creation) (callback : Path → σ → Except ε Bool × σ) (disk : Disk)
    (state : σ) : List (Event Path (Except ε Bool)) :=
  (creation.run Script.query).events (Script.recorded callback) disk ([], state)

/-- The claim has created the destination, a directory that was not there before, or the callback
was called for it and has consented. -/
def MayReplace (creation : Creation) (callback : Path → σ → Except ε Bool × σ) (disk : Disk)
    (state : σ) : Prop :=
  (((Directory.claim creation.destination).runSilent disk).1 = .ok .created ∧
    ∃ location, disk.at? location = none ∧
      (creation.carryOut callback disk state).disk.at? location = some .directory ∧
      (creation.carryOut callback disk state).disk.LeadsTo creation.destination location) ∨
    ((creation.carryOut callback disk state).state.1 = [creation.destination] ∧
      (callback creation.destination state).1 = .ok true)

structure IsConfined (creation : Creation) (callback : Path → σ → Except ε Bool × σ) (disk : Disk)
    (state : σ) : Prop where
  alters : disk.Alters creation.MayMake creation.MayWrite
    (creation.carryOut callback disk state).disk
  unwritten : ¬ creation.MayReplace callback disk state →
    disk.Alters creation.MayMake (fun _ _ => False) (creation.carryOut callback disk state).disk
  ordered : ∀ past c reply more,
    creation.events callback disk state = past ++ .called c reply :: more →
      creation.WritesSource c → creation.HeaderWritten past

theorem claim_mayMake (creation : Creation) (disk : Disk) :
    disk.Alters creation.MayMake (fun _ _ => False)
      ((Directory.claim creation.destination).runSilent disk).2 := by
  have hdestination : creation.MayMake creation.destination := Or.inl (.refl _)
  refine (Directory.claim_alters creation.destination disk).mono ?_ fun _ _ h => h
  rintro path (rfl | hancestor)
  · exact hdestination
  · exact mayMake_of_mem_ancestors hdestination hancestor

/-- Without consent nothing follows the claim that would touch the disk. -/
theorem alters_of_not_mayReplace {callback : Path → σ → Except ε Bool × σ} {state : σ}
    (hnot : ¬ creation.MayReplace callback disk state) :
    disk.Alters creation.MayMake (fun _ _ => False)
      (creation.carryOut callback disk state).disk := by
  cases hdry : creation.isDryRun with
  | true =>
      rw [carryOut_of_isDryRun hdry]
      exact .refl disk
  | false =>
      have halters := claim_mayMake creation disk
      rcases hclaim : (Directory.claim creation.destination).runSilent disk with ⟨claimed, after⟩
      rw [hclaim] at halters
      rcases claimed with failure | ⟨_ | _⟩
      case error =>
        rw [carryOut, run_of_claim _ _ hdry hclaim, proceed]
        exact halters
      case ok.created =>
        obtain ⟨location, hcreates⟩ := Directory.exists_creates hclaim
        have hgrows : after.Grows (creation.carryOut callback disk state).disk := by
          rw [carryOut_of_created hdry hclaim]
          dsimp only
          exact Script.grows_runSilent _ after
        refine (hnot (Or.inl ⟨?_, location, hcreates.absent,
          hgrows.directory hcreates.directory, hgrows.leadsTo hcreates.leadsTo⟩)).elim
        rw [hclaim]
      case ok.existing =>
        have hcarry : creation.carryOut callback disk state = _ :=
          carryOut_of_existing hdry hclaim
        rcases hreply : (callback creation.destination state).1 with error | ⟨_ | _⟩
        all_goals rw [hreply] at hcarry
        case error =>
          rw [hcarry, conclude]
          exact halters
        case ok.false =>
          rw [hcarry, conclude]
          exact halters
        case ok.true =>
          refine (hnot (Or.inr ⟨?_, hreply⟩)).elim
          rw [hcarry, conclude, run_writeFiles]

/-- **A creation touches its own two files only.** Whatever the disk and the request, whatever the
callback answers and however the creation ends, all directories and links are left, all that is
made is made on the way to the two files, no other file changes, and these are written only with
consent and the header first. -/
theorem isConfined (creation : Creation) (callback : Path → σ → Except ε Bool × σ) (disk : Disk)
    (state : σ) : creation.IsConfined callback disk state where
  alters := creation.only_run.alters (Script.recorded callback) disk ([], state)
  unwritten := alters_of_not_mayReplace
  ordered := by
    intro past c reply more hevents hsource
    have hunfolds := Script.unfolds_events (Script.recorded callback)
      (creation.run Script.query) disk ([], state)
    change Script.Unfolds _ (creation.events callback disk state) _ at hunfolds
    rw [hevents] at hunfolds
    exact run_awaits_header creation past c reply more _ hunfolds hsource

end Creation

end Scaffold
