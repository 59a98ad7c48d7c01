import Scaffold.Proofs.Course

/-!
# Creations at the same time

Several creations share a destination and a disk, and their calls interleave in any way. The first
call that makes the destination decides: whoever made it has created it, and everybody else finds
it. So at most one of them writes files that nobody has been asked about.
-/

namespace Scaffold

section Histories

variable {ι Query Answer α : Type} [DecidableEq ι] {i j : ι} {event : Event Query Answer}
  {history before after : List (ι × Event Query Answer)}

def eventsOf (i : ι) (history : List (ι × Event Query Answer)) : List (Event Query Answer) :=
  history.filterMap fun step => if step.1 = i then some step.2 else none

theorem eventsOf_append :
    eventsOf i (before ++ after) = eventsOf i before ++ eventsOf i after :=
  List.filterMap_append

theorem eventsOf_self : eventsOf i [(i, event)] = [event] := by
  simp [eventsOf]

theorem mem_eventsOf : event ∈ eventsOf i history ↔ (i, event) ∈ history := by
  constructor
  · intro hmem
    obtain ⟨⟨j, other⟩, hstep, hevent⟩ := List.mem_filterMap.mp hmem
    by_cases hself : j = i
    · rw [if_pos hself] at hevent
      cases hevent
      exact hself ▸ hstep
    · rw [if_neg hself] at hevent
      cases hevent
  · exact fun hmem => List.mem_filterMap.mpr ⟨_, hmem, if_pos rfl⟩

theorem unfolds_update {scripts rest : ι → Script Query Answer α} {next : Script Query Answer α}
    (hrest : ∀ j, (scripts j).Unfolds (eventsOf j history) (rest j))
    (hnext : (rest i).Unfolds [event] next) (j : ι) :
    (scripts j).Unfolds (eventsOf j (history ++ [(i, event)])) (Function.update rest i next j) := by
  rw [eventsOf_append]
  by_cases hself : j = i
  · subst hself
    rw [Function.update_self, eventsOf_self]
    exact (hrest j).append hnext
  · have hother : eventsOf j [(i, event)] = [] := by
      simp [eventsOf, Ne.symm hself]
    rw [Function.update_of_ne hself, hother, List.append_nil]
    exact hrest j

inductive Interleaves (scripts : ι → Script Query Answer α) (start : Disk) :
    List (ι × Event Query Answer) → Disk → Prop where
  | nil : Interleaves scripts start [] start
  | call {history : List (ι × Event Query Answer)} {disk : Disk} {i : ι} {c : Call}
      {next : c.Reply → Script Query Answer α} (h : Interleaves scripts start history disk)
      (hnext : (scripts i).Unfolds (eventsOf i history) (.call c next)) :
      Interleaves scripts start (history ++ [(i, .called c (c.perform disk).1)]) (c.perform disk).2
  | ask {history : List (ι × Event Query Answer)} {disk : Disk} {i : ι} {query : Query}
      {next : Answer → Script Query Answer α} (answer : Answer)
      (h : Interleaves scripts start history disk)
      (hnext : (scripts i).Unfolds (eventsOf i history) (.ask query next)) :
      Interleaves scripts start (history ++ [(i, .asked query answer)]) disk

namespace Interleaves

variable {scripts : ι → Script Query Answer α} {start disk : Disk}

/-- What has happened was an interleaving before, too, and the disk has only grown since. -/
theorem of_append (h : Interleaves scripts start (before ++ after) disk) :
    ∃ middle, Interleaves scripts start before middle ∧ middle.Grows disk := by
  generalize hsum : before ++ after = history at h
  induction h generalizing after with
  | nil =>
      obtain ⟨rfl, rfl⟩ := List.append_eq_nil_iff.mp hsum
      exact ⟨start, .nil, .refl start⟩
  | @call history disk i c next h hnext ih =>
      rcases List.eq_nil_or_concat after with rfl | ⟨init, last, rfl⟩
      · rw [List.append_nil] at hsum
        exact ⟨_, hsum ▸ .call h hnext, .refl _⟩
      · rw [List.concat_eq_append, ← List.append_assoc] at hsum
        obtain ⟨hinit, _⟩ := List.append_inj' hsum rfl
        obtain ⟨middle, hmiddle, hgrows⟩ := ih hinit
        exact ⟨middle, hmiddle, hgrows.trans (c.grows disk)⟩
  | @ask history disk i query next answer h hnext ih =>
      rcases List.eq_nil_or_concat after with rfl | ⟨init, last, rfl⟩
      · rw [List.append_nil] at hsum
        exact ⟨_, hsum ▸ .ask answer h hnext, .refl _⟩
      · rw [List.concat_eq_append, ← List.append_assoc] at hsum
        obtain ⟨hinit, _⟩ := List.append_inj' hsum rfl
        exact ih hinit

/-- The last call was the next one of its script, and the disk is what it left. -/
theorem of_called {c : Call} {reply : c.Reply}
    (h : Interleaves scripts start (before ++ [(i, .called c reply)]) disk) :
    ∃ middle next, Interleaves scripts start before middle ∧
      (scripts i).Unfolds (eventsOf i before) (.call c next) ∧
        c.perform middle = (reply, disk) := by
  generalize hsum : before ++ [(i, Event.called c reply)] = history at h
  cases h with
  | nil => simp at hsum
  | @call history middle k other next h hnext =>
      obtain ⟨rfl, hlast⟩ := List.append_inj' hsum rfl
      cases hlast
      exact ⟨middle, next, h, hnext, rfl⟩
  | ask answer h hnext =>
      obtain ⟨rfl, hlast⟩ := List.append_inj' hsum rfl
      cases hlast

theorem exists_rest (h : Interleaves scripts start history disk) :
    ∃ rest : ι → Script Query Answer α, ∀ j, (scripts j).Unfolds (eventsOf j history) (rest j) := by
  induction h with
  | nil => exact ⟨scripts, fun _ => .nil⟩
  | @call history disk i c next _ hnext ih =>
      obtain ⟨rest, hrest⟩ := ih
      have hcall : (rest i).Unfolds [.called c (c.perform disk).1] (next (c.perform disk).1) := by
        rw [(hrest i).unique hnext]
        exact .call .nil
      exact ⟨_, unfolds_update hrest hcall⟩
  | @ask history disk i query next answer _ hnext ih =>
      obtain ⟨rest, hrest⟩ := ih
      have hask : (rest i).Unfolds [.asked query answer] (next answer) := by
        rw [(hrest i).unique hnext]
        exact .ask .nil
      exact ⟨_, unfolds_update hrest hask⟩

end Interleaves

def play : (ι → Script Query Answer α) → Disk → List (ι × Answer) →
    List (ι × Event Query Answer) × Disk
  | _, disk, [] => ([], disk)
  | scripts, disk, (i, answer) :: turns =>
    match scripts i with
    | .done _ => play scripts disk turns
    | .call c next =>
      let played := play (Function.update scripts i (next (c.perform disk).1))
        (c.perform disk).2 turns
      ((i, .called c (c.perform disk).1) :: played.1, played.2)
    | .ask query next =>
      let played := play (Function.update scripts i (next answer)) disk turns
      ((i, .asked query answer) :: played.1, played.2)

theorem Interleaves.append_play {scripts rest : ι → Script Query Answer α} {start disk : Disk}
    (h : Interleaves scripts start history disk)
    (hrest : ∀ i, (scripts i).Unfolds (eventsOf i history) (rest i)) (turns : List (ι × Answer)) :
    Interleaves scripts start (history ++ (play rest disk turns).1)
      (play rest disk turns).2 := by
  induction turns generalizing history rest disk with
  | nil => simpa [play] using h
  | cons turn turns ih =>
      obtain ⟨i, answer⟩ := turn
      have hnext := hrest i
      rw [play]
      cases hscript : rest i with
      | done value => exact ih h hrest
      | call c next =>
          rw [hscript] at hnext
          rw [List.append_cons]
          exact ih (h.call hnext) (unfolds_update hrest (hscript ▸ .call .nil))
      | ask query next =>
          rw [hscript] at hnext
          rw [List.append_cons]
          exact ih (h.ask answer hnext) (unfolds_update hrest (hscript ▸ .ask .nil))

end Histories

/-! ### Who is granted a directory -/

section Grants

variable {ι Query Answer α : Type} [DecidableEq ι] {i j : ι} {destination : Path} {claim : Claim}
  {history before after : List (ι × Event Query Answer)}

/-- One of the scripts has claimed the directory and was told that it has created or found it. -/
def Granted (destination : Path) (history : List (ι × Event Query Answer)) (i : ι)
    (claim : Claim) : Prop :=
  ∃ past, past <+: eventsOf i history ∧
    (Directory.claim destination).Unfolds past (.done (.ok claim))

theorem Granted.append (h : Granted destination before i claim)
    (after : List (ι × Event Query Answer)) : Granted destination (before ++ after) i claim := by
  obtain ⟨past, hinit, hclaim⟩ := h
  refine ⟨past, ?_, hclaim⟩
  rw [eventsOf_append]
  exact hinit.trans (List.prefix_append _ _)

theorem Granted.mem (h : Granted destination history i claim) :
    (i, Directory.verdict destination claim) ∈ history := by
  obtain ⟨past, hinit, hclaim⟩ := h
  obtain ⟨init, rfl⟩ := Directory.unfolds_claim_ok hclaim
  exact mem_eventsOf.mp (hinit.subset (by simp))

variable {scripts : ι → Script Query Answer α} {start disk : Disk}

theorem Interleaves.isDirectory_of_mem (h : Interleaves scripts start history disk)
    (hmem : (i, Directory.verdict destination claim) ∈ history) :
    disk.isDirectory destination = true := by
  obtain ⟨before, after, rfl⟩ := List.append_of_mem hmem
  rw [List.append_cons] at h
  obtain ⟨above, habove, hgrows⟩ := h.of_append
  refine hgrows.isDirectory ?_
  cases claim with
  | created =>
      obtain ⟨middle, _, _, _, hperform⟩ := of_called habove
      exact Disk.isDirectory_of_makeDirectory (Call.makeDirectory_of_perform hperform)
  | existing =>
      obtain ⟨middle, _, _, _, hperform⟩ := of_called habove
      have hfound : (middle.isDirectory destination, middle) = (true, above) := hperform
      obtain ⟨hdir, rfl⟩ := Prod.mk.inj hfound
      exact hdir

theorem Interleaves.isDirectory_of_granted (h : Interleaves scripts start history disk)
    (hgranted : Granted destination history i claim) : disk.isDirectory destination = true :=
  h.isDirectory_of_mem hgranted.mem

/-- Nobody has been told of a directory before the call that makes it. -/
theorem Interleaves.notMem_before
    (h : Interleaves scripts start (before ++ [(i, Directory.verdict destination .created)]) disk) :
    (j, Directory.verdict destination claim) ∉ before := by
  intro hmem
  obtain ⟨middle, _, hbefore, _, hperform⟩ := of_called h
  have hmake := Call.makeDirectory_of_perform hperform
  rw [Disk.makeDirectory_of_isDirectory (hbefore.isDirectory_of_mem hmem)] at hmake
  cases hmake

/-- A directory is made once. -/
theorem Interleaves.creator_unique (h : Interleaves scripts start history disk)
    (hi : (i, Directory.verdict destination .created) ∈ history)
    (hj : (j, Directory.verdict destination .created) ∈ history) : i = j := by
  obtain ⟨before, after, rfl⟩ := List.append_of_mem hi
  have hsum := h
  rw [List.append_cons] at hsum
  obtain ⟨_, hbefore, _⟩ := hsum.of_append
  rcases List.mem_append.mp hj with hj | hj
  · exact absurd hj hbefore.notMem_before
  rcases List.mem_cons.mp hj with hj | hj
  · exact (congrArg Prod.fst hj).symm
  · obtain ⟨between, last, rfl⟩ := List.append_of_mem hj
    rw [← List.cons_append, ← List.append_assoc, List.append_cons] at h
    obtain ⟨_, hlater, _⟩ := h.of_append
    exact absurd (List.mem_append_right before List.mem_cons_self) hlater.notMem_before

end Grants

/-! ### Creations that share a destination -/

section Rivals

variable {ι ε : Type} [DecidableEq ι] {creations : ι → Creation} {destination : Path} {i : ι}
  {history before after : List (ι × Event Path (Except ε Bool))} {start disk : Disk}

def Creation.scripts (creations : ι → Creation) (i : ι) :
    Script Path (Except ε Bool) (Except (CreationFailure ε) Report) :=
  (creations i).run Script.query

variable (hsame : ∀ i, (creations i).destination = destination)
  (h : Interleaves (Creation.scripts creations) start history disk)

include hsame

/-- The call that makes the destination is the last one of a claim. -/
theorem Interleaves.granted_of_creator
    (h : Interleaves (Creation.scripts creations) start
      (before ++ [(i, Directory.verdict destination .created)]) disk) :
    Granted destination (before ++ [(i, Directory.verdict destination .created)]) i .created := by
  obtain ⟨middle, next, _, hnext, _⟩ := of_called h
  rcases Creation.unfolds_run_call hnext with ⟨rest, hclaim⟩ | ⟨first, claimed, hinit, hclaim⟩
  · rw [hsame i] at hclaim
    refine ⟨_, List.prefix_rfl, ?_⟩
    rw [eventsOf_append, eventsOf_self]
    exact Directory.unfolds_claim_created hclaim
  · rw [hsame i] at hclaim
    have hgranted : Granted destination before i claimed := ⟨first, hinit, hclaim⟩
    exact absurd hgranted.mem h.notMem_before

/-- As long as nobody has made the destination, it is not there: what else is made before is above
it. -/
theorem Interleaves.isDirectory_of_no_creator (hup : .up ∉ destination.components)
    (hstart : start.isDirectory destination = false)
    (h : Interleaves (Creation.scripts creations) start history disk)
    (hnone : ∀ i, (i, Directory.verdict destination .created) ∉ history) :
    disk.isDirectory destination = false := by
  induction h with
  | nil => exact hstart
  | ask answer _ _ ih => exact ih fun i hmem => hnone i (List.mem_append_left _ hmem)
  | @call history disk i c next h hnext ih =>
      have hbefore := ih fun i hmem => hnone i (List.mem_append_left _ hmem)
      rcases Creation.unfolds_run_call hnext with
        ⟨rest, hclaim⟩ | ⟨first, claimed, hinit, hclaim⟩
      · -- A claim makes its path and the ancestors, and it has not made the path.
        rw [hsame i] at hclaim
        have honly : (Directory.claim destination : Script Path (Except ε Bool) _).Only
            (Call.IsWithin (fun path => path = destination ∨ path ∈ destination.ancestors)
              fun _ _ => False) :=
          (Directory.only_claim (Or.inl rfl) fun _ hstem => Or.inr hstem).isWithin
        cases (honly.of_unfolds hclaim).1 with
        | call hwithin =>
            cases c with
            | isDirectory path | isFile path | readText path => exact hbefore
            | writeFile path content => exact hwithin.elim
            | makeDirectory path =>
                have hperform : (Call.makeDirectory path).perform disk =
                    Call.changed disk (disk.makeDirectory path) := rfl
                rw [hperform] at hnone ⊢
                cases hmake : disk.makeDirectory path with
                | error fault => exact hbefore
                | ok made =>
                    rw [hmake] at hnone
                    rcases hwithin with rfl | hancestor
                    · exact absurd (List.mem_append_right _ List.mem_cons_self) (hnone i)
                    · exact Disk.isDirectory_of_makeDirectory_ancestor
                        (Path.isAncestorOf_of_mem_ancestors hancestor) hup hmake
      · -- Nobody is past the claim yet: the directory would be there.
        rw [hsame i] at hclaim
        have hgranted : Granted destination history i claimed := ⟨first, hinit, hclaim⟩
        rw [h.isDirectory_of_granted hgranted] at hbefore
        cases hbefore

/-- A creation has written a file and was not told yes for the destination before. -/
def WritesUnasked (destination : Path) (history : List (ι × Event Path (Except ε Bool)))
    (i : ι) : Prop :=
  ∃ past path content reply more,
    eventsOf i history = past ++ .called (.writeFile path content) reply :: more ∧
      .asked destination (.ok true) ∉ past

theorem granted_of_writesUnasked (h : Interleaves (Creation.scripts creations) start history disk)
    (hwrites : WritesUnasked destination history i) : Granted destination history i .created := by
  obtain ⟨past, path, content, reply, more, hevents, hunasked⟩ := hwrites
  obtain ⟨rest, hrest⟩ := h.exists_rest
  have hunfolds := hrest i
  rw [hevents] at hunfolds
  have hguard := (creations i).run_awaits_claim past _ reply more (rest i) hunfolds
    ⟨path, content, rfl⟩
  rw [hsame i] at hguard
  rcases hguard with ⟨first, hinit, hclaim⟩ | hasked
  · exact ⟨first, hevents ▸ hinit.trans (List.prefix_append _ _), hclaim⟩
  · exact absurd hasked hunasked

structure IsExclusive (destination : Path) (start : Disk)
    (history : List (ι × Event Path (Except ε Bool))) : Prop where
  unique : ∀ i j, Granted destination history i .created →
    Granted destination history j .created → i = j
  first : ∀ before i after,
    history = before ++ (i, .called (.makeDirectory destination) (.ok ())) :: after →
      (∀ j claim, ¬ Granted destination before j claim) ∧
        Granted destination history i .created ∧
          ∀ j claim, j ≠ i → Granted destination history j claim → claim = .existing
  needed : start.isDirectory destination = false → ∀ j claim,
    Granted destination history j claim →
      ∃ i, (i, .called (.makeDirectory destination) (.ok ())) ∈ history
  unasked : ∀ i j, WritesUnasked destination history i →
    WritesUnasked destination history j → i = j

/-- **No file is written unasked twice.** Any number of creations with one destination interleave.
The first call that makes it tells its creation that it has created it, all others are told that it
existed, and only the creation that has made it can write without having been told yes. -/
theorem Interleaves.isExclusive (hup : .up ∉ destination.components)
    (h : Interleaves (Creation.scripts creations) start history disk) :
    IsExclusive destination start history where
  unique i j hi hj := h.creator_unique hi.mem hj.mem
  first := by
    rintro before i after rfl
    have hcut := h
    rw [List.append_cons] at hcut
    obtain ⟨middle, hmiddle, _⟩ := hcut.of_append
    have hgranted := (granted_of_creator hsame hmiddle).append after
    rw [← List.append_cons] at hgranted
    refine ⟨fun j claim hbefore => hmiddle.notMem_before hbefore.mem, hgranted, ?_⟩
    intro j claim hne hother
    cases claim with
    | existing => rfl
    | created => exact absurd (h.creator_unique hother.mem hgranted.mem) hne
  needed := by
    intro hstart j claim hgranted
    by_contra hnone
    have hmissing := isDirectory_of_no_creator hsame hup hstart h fun i hmem => hnone ⟨i, hmem⟩
    rw [h.isDirectory_of_granted hgranted] at hmissing
    cases hmissing
  unasked i j hi hj :=
    h.creator_unique (granted_of_writesUnasked hsame h hi).mem
      (granted_of_writesUnasked hsame h hj).mem

end Rivals

/-- The second creation loses the race for `src`, finds the directory and is told no, while the
first one writes its header. -/
theorem isExclusive_of_lost_race :
    let creation : Creation :=
      { request := ⟨"Widget", "Ada", "A widget.", { year := 2012, month := 1, day := 1 }⟩
        config := { Config.default with outputDir := ⟨"src"⟩ }
        root := ⟨"."⟩
        isDryRun := false }
    let turns : List (Bool × Except String Bool) :=
      [true, false, false, true, false, false, true, true, false, true].map (·, .ok false)
    let played := play (Creation.scripts fun _ => creation) Disk.workspace turns
    played.1.map Prod.fst = [true, false, false, true, false, false, true, true, false, true] ∧
      played.2.isFile (creation.blueprint.headerPath creation.destination) = true ∧
        IsExclusive creation.destination Disk.workspace played.1 := by
  intro creation turns played
  refine ⟨by decide +kernel, by decide +kernel, ?_⟩
  have hplayed : Interleaves (Creation.scripts fun _ => creation) Disk.workspace
      ([] ++ played.1) played.2 := Interleaves.nil.append_play (fun _ => .nil) turns
  rw [List.nil_append] at hplayed
  exact Interleaves.isExclusive (fun _ => rfl) (by decide) hplayed

end Scaffold
