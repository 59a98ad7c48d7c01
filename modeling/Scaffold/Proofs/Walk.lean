import Scaffold.Disk.Operations

/-!
# Walks that arrive

A walk through the tree is a function with an allowance of links. What the proofs need from it is
where it arrives, so `Leads` says that as a relation: it counts the links that are followed, it can
be cut at any step, and it survives every change that keeps the directories and the links.
-/

namespace Scaffold.Disk

open Scaffold.Path (Step)

variable {disk after : Disk} {aim : Aim} {links used : Nat} {here next middle there : Location}
  {step : Step} {first second rest steps : List Step} {name : String} {target : Target}

/-! ### One step of a walk -/

inductive Passes (disk : Disk) (here : Location) : Step → Location → Prop where
  | slash : Passes disk here .slash here
  | stay : Passes disk here .stay here
  | up : Passes disk here .up here.tail
  | into {name : String} (hsize : name.utf8ByteSize ≤ maxNameSize)
      (hnotLink : ∀ path, disk.at? (name :: here) ≠ some (.link path)) :
      Passes disk here (.into name) (name :: here)

inductive Meets (disk : Disk) (here : Location) : Step → Path → Prop where
  | link {name : String} {path : Path} (hsize : name.utf8ByteSize ≤ maxNameSize)
      (hlink : disk.at? (name :: here) = some (.link path)) :
      Meets disk here (.into name) path

theorem Passes.unique {other : Location} (hleft : disk.Passes here step next)
    (hright : disk.Passes here step other) : next = other := by
  cases hleft <;> cases hright <;> rfl

theorem Meets.unique {left right : Path} (hleft : disk.Meets here step left)
    (hright : disk.Meets here step right) : left = right := by
  cases hleft with
  | link _ hlink =>
      cases hright with
      | link _ hlink' => exact Entry.link.inj (Option.some.inj (hlink.symm.trans hlink'))

theorem Passes.not_meets {path : Path} (hpass : disk.Passes here step next)
    (hmeet : disk.Meets here step path) : False := by
  cases hmeet with
  | link _ hlink =>
      cases hpass with
      | into _ hnotLink => exact hnotLink path hlink

theorem checkDirectory_of_directory (hdir : disk.at? here = some .directory) :
    disk.checkDirectory here = .ok () :=
  checkDirectory_eq_ok_iff.mpr hdir

theorem walkLinks_nil : walkLinks disk aim links here [] = .ok ⟨here, false⟩ := by
  cases links <;> simp [walkLinks, walkSteps]

theorem walkLinks_last_slash : walkLinks disk aim links here [.slash] = .ok ⟨here, true⟩ := by
  cases links <;> simp [walkLinks, walkSteps]

/-- Only a slash at the end is not checked, and only a file's name before it is refused. -/
theorem walkLinks_pass (hdir : disk.at? here = some .directory)
    (hpass : disk.Passes here step next) (hlast : step :: rest ≠ [.slash])
    (hfile : aim = .file → ∀ name, step :: rest ≠ [.into name, .slash]) :
    walkLinks disk aim links here (step :: rest) = walkLinks disk aim links next rest := by
  have hcheck := checkDirectory_of_directory hdir
  cases hpass with
  | slash =>
      have hrest : rest ≠ [] := fun h => hlast (by rw [h])
      cases links <;> (rw [walkLinks, walkSteps.eq_3 _ _ _ _ _ hrest, hcheck]; rfl)
  | stay => cases links <;> (rw [walkLinks, walkSteps, hcheck]; rfl)
  | up => cases links <;> (rw [walkLinks, walkSteps, hcheck]; rfl)
  | @into name hsize hnotLink =>
      have hshort : ¬ maxNameSize < name.utf8ByteSize := Nat.not_lt.mpr hsize
      have hrefused : ¬ (aim = .file ∧ rest = [.slash]) := fun h => hfile h.1 name (by rw [h.2])
      cases links <;>
        (simp only [walkLinks, walkSteps, hcheck, if_neg hshort, if_neg hrefused]
         rfl)

/-- A link stands for the steps of its target, unless the walk looks for the link itself. -/
theorem walkLinks_meet {path : Path} (hdir : disk.at? here = some .directory)
    (hmeet : disk.Meets here step path) (haim : aim = .file → rest ≠ [.slash])
    (hentry : aim = .entry → isEnd rest = false) :
    walkLinks disk aim (links + 1) here (step :: rest) =
      walkLinks disk aim links (startOf path here) (path.steps ++ rest) := by
  obtain ⟨hsize, hlink⟩ := hmeet
  have hshort := Nat.not_lt.mpr hsize
  have hfile : ¬ (aim = .file ∧ rest = [.slash]) := fun h => haim h.1 h.2
  have hgoesOn : ¬ (aim = .entry ∧ isEnd rest = true) := by
    rintro ⟨haim, hend⟩
    simp [hentry haim] at hend
  simp only [walkLinks, walkSteps, checkDirectory_of_directory hdir, if_neg hshort, if_neg hfile,
    hlink, if_neg hgoesOn]
  rfl

theorem walkLinks_entry_link {path : Path} (hdir : disk.at? here = some .directory)
    (hsize : name.utf8ByteSize ≤ maxNameSize)
    (hlink : disk.at? (name :: here) = some (.link path)) (hend : isEnd rest = true) :
    walkLinks disk .entry links here (.into name :: rest) =
      .ok ⟨name :: here, !rest.isEmpty⟩ := by
  have hshort : ¬ maxNameSize < name.utf8ByteSize := Nat.not_lt.mpr hsize
  cases links <;>
    (simp only [walkLinks, walkSteps, checkDirectory_of_directory hdir, if_neg hshort, hlink, hend]
     rfl)

/-- A walk goes nowhere from where no directory is, unless no name follows. -/
theorem walkLinks_of_checkDirectory {fault : Fault}
    (hcheck : disk.checkDirectory here = .error fault) (hend : isEnd steps = false) :
    walkLinks disk aim links here steps = .error fault := by
  cases steps with
  | nil => cases hend
  | cons step rest =>
      cases step with
      | slash =>
          have hrest : rest ≠ [] := by
            rintro rfl
            cases hend
          cases links <;> (rw [walkLinks, walkSteps.eq_3 _ _ _ _ _ hrest, hcheck]; rfl)
      | stay => cases links <;> (rw [walkLinks, walkSteps, hcheck]; rfl)
      | up => cases links <;> (rw [walkLinks, walkSteps, hcheck]; rfl)
      | into name => cases links <;> (rw [walkLinks, walkSteps, hcheck]; rfl)

theorem walkLinks_into_cases (hdir : disk.at? here = some .directory)
    (hwalk : walkLinks disk aim links here (.into name :: rest) = .ok target) :
    (aim = .file → rest ≠ [.slash]) ∧
      ((disk.Passes here (.into name) (name :: here) ∧
          walkLinks disk aim links (name :: here) rest = .ok target) ∨
        ∃ path, disk.Meets here (.into name) path ∧
          ((aim = .entry ∧ isEnd rest = true ∧ target = ⟨name :: here, !rest.isEmpty⟩) ∨
            (aim = .entry → isEnd rest = false) ∧ ∃ fewer, links = fewer + 1 ∧
              walkLinks disk aim fewer (startOf path here) (path.steps ++ rest) = .ok target)) := by
  have hcheck := checkDirectory_of_directory hdir
  have hfile : ¬ (aim = .file ∧ rest = [.slash]) := by
    intro h
    cases links <;> (simp only [walkLinks, walkSteps, hcheck, if_pos h] at hwalk; cases hwalk)
  have hshort : ¬ maxNameSize < name.utf8ByteSize := by
    intro h
    cases links <;>
      (simp only [walkLinks, walkSteps, hcheck, if_neg hfile, if_pos h] at hwalk; cases hwalk)
  have hsize := Nat.not_lt.mp hshort
  have haim : aim = .file → rest ≠ [.slash] := fun h hrest => hfile ⟨h, hrest⟩
  refine ⟨haim, ?_⟩
  by_cases hlink : ∃ path, disk.at? (name :: here) = some (.link path)
  · obtain ⟨path, hpath⟩ := hlink
    have hmeet : disk.Meets here (.into name) path := .link hsize hpath
    refine Or.inr ⟨path, hmeet, ?_⟩
    by_cases hentry : aim = .entry ∧ isEnd rest = true
    · rw [hentry.1, walkLinks_entry_link hdir hsize hpath hentry.2] at hwalk
      cases hwalk
      exact Or.inl ⟨hentry.1, hentry.2, rfl⟩
    · have hgoesOn : aim = .entry → isEnd rest = false := fun h => by
        simpa using fun hend => hentry ⟨h, hend⟩
      cases links with
      | zero =>
          simp only [walkLinks, walkSteps, hcheck, if_neg hfile, if_neg hshort, hpath,
            if_neg hentry] at hwalk
          cases hwalk
      | succ fewer =>
          rw [walkLinks_meet hdir hmeet haim hgoesOn] at hwalk
          exact Or.inr ⟨hgoesOn, fewer, rfl, hwalk⟩
  · have hpass : disk.Passes here (.into name) (name :: here) :=
      .into hsize fun path hpath => hlink ⟨path, hpath⟩
    rw [walkLinks_pass hdir hpass (by simp) (by simpa using haim)] at hwalk
    exact Or.inl ⟨hpass, hwalk⟩

inductive Starts (disk : Disk) (aim : Aim) (links : Nat) (here : Location) (step : Step)
    (rest : List Step) (target : Target) : Prop where
  | pass {next : Location} (hpass : disk.Passes here step next)
      (hrest : walkLinks disk aim links next rest = .ok target)
  | follow {path : Path} {fewer : Nat} (hmeet : disk.Meets here step path)
      (hgoesOn : aim = .entry → isEnd rest = false) (hlinks : links = fewer + 1)
      (hrest : walkLinks disk aim fewer (startOf path here) (path.steps ++ rest) = .ok target)
  | stop {name : String} {path : Path} (haim : aim = .entry) (hend : isEnd rest = true)
      (hstep : step = .into name) (hmeet : disk.Meets here step path)
      (htarget : target = ⟨name :: here, !rest.isEmpty⟩)

/-- All that a walk which arrives can have done first. -/
theorem walkLinks_cons_cases (hwalk : walkLinks disk aim links here (step :: rest) = .ok target) :
    (step :: rest = [.slash] ∧ target = ⟨here, true⟩) ∨
      step :: rest ≠ [.slash] ∧ disk.at? here = some .directory ∧
        (aim = .file → ∀ name, step :: rest ≠ [.into name, .slash]) ∧
        Starts disk aim links here step rest target := by
  by_cases hlast : step :: rest = [.slash]
  · rw [hlast, walkLinks_last_slash] at hwalk
    cases hwalk
    exact Or.inl ⟨hlast, rfl⟩
  have hdir : disk.at? here = some .directory := by
    cases hcheck : disk.checkDirectory here with
    | ok value => exact checkDirectory_eq_ok_iff.mp hcheck
    | error fault =>
        have hend : isEnd (step :: rest) = false := by
          cases step <;> cases rest <;> simp_all [isEnd]
        rw [walkLinks_of_checkDirectory hcheck hend] at hwalk
        cases hwalk
  refine Or.inr ⟨hlast, hdir, ?_⟩
  have hgoes {next : Location} (hname : ∀ name, step ≠ .into name)
      (hpass : disk.Passes here step next) :
      (aim = .file → ∀ name, step :: rest ≠ [.into name, .slash]) ∧
        Starts disk aim links here step rest target := by
    refine ⟨by simp [hname], .pass hpass ?_⟩
    rwa [walkLinks_pass hdir hpass hlast (by simp [hname])] at hwalk
  cases step with
  | slash => exact hgoes (by simp) .slash
  | stay => exact hgoes (by simp) .stay
  | up => exact hgoes (by simp) .up
  | into name =>
      obtain ⟨hfile, hcases⟩ := walkLinks_into_cases hdir hwalk
      refine ⟨by simpa using hfile, ?_⟩
      rcases hcases with ⟨hpass, hrest⟩ |
        ⟨path, hmeet, ⟨haim, hend, htarget⟩ | ⟨hgoesOn, fewer, hlinks, hrest⟩⟩
      · exact .pass hpass hrest
      · exact .stop haim hend rfl hmeet htarget
      · exact .follow hmeet hgoesOn hlinks hrest

theorem isEnd_append (tail : List Step) (hend : isEnd second = false) :
    isEnd (tail ++ second) = false := by
  cases second with
  | nil => cases hend
  | cons step rest => cases tail <;> cases step <;> cases rest <;> simp_all [isEnd]

/-! ### Where steps lead -/

inductive Leads (disk : Disk) : Nat → Location → List Step → Location → Prop where
  | done {here : Location} : Leads disk 0 here [] here
  | pass {links : Nat} {here next there : Location} {step : Step} {rest : List Step}
      (hdir : disk.at? here = some .directory) (hpass : disk.Passes here step next)
      (hrest : Leads disk links next rest there) : Leads disk links here (step :: rest) there
  | follow {links : Nat} {here there : Location} {step : Step} {rest : List Step} {path : Path}
      (hdir : disk.at? here = some .directory) (hmeet : disk.Meets here step path)
      (hrest : Leads disk links (startOf path here) (path.steps ++ rest) there) :
      Leads disk (links + 1) here (step :: rest) there

namespace Leads

theorem trans {more : Nat} (hfirst : disk.Leads links here first middle)
    (hsecond : disk.Leads more middle second there) :
    disk.Leads (links + more) here (first ++ second) there := by
  induction hfirst with
  | done => simpa using hsecond
  | pass hdir hpass _ ih => exact .pass hdir hpass (ih hsecond)
  | follow hdir hmeet _ ih =>
      rw [Nat.add_right_comm]
      exact .follow hdir hmeet (by simpa using ih hsecond)

theorem split (h : disk.Leads links here (first ++ second) there) :
    ∃ before behind middle, before + behind = links ∧ disk.Leads before here first middle ∧
      disk.Leads behind middle second there := by
  generalize hsteps : first ++ second = steps at h
  induction h generalizing first with
  | @done here =>
      obtain ⟨rfl, rfl⟩ := List.append_eq_nil_iff.mp hsteps
      exact ⟨0, 0, here, rfl, .done, .done⟩
  | @pass links here next there step rest hdir hpass hrest ih =>
      cases first with
      | nil =>
          obtain rfl : second = step :: rest := hsteps
          exact ⟨0, links, here, Nat.zero_add links, .done, .pass hdir hpass hrest⟩
      | cons step tail =>
          obtain ⟨rfl, htail⟩ := List.cons.inj hsteps
          obtain ⟨before, behind, middle, hsum, hfirst, hsecond⟩ := ih htail
          exact ⟨before, behind, middle, hsum, .pass hdir hpass hfirst, hsecond⟩
  | @follow links here there step rest path hdir hmeet hrest ih =>
      cases first with
      | nil =>
          obtain rfl : second = step :: rest := hsteps
          exact ⟨0, links + 1, here, Nat.zero_add _, .done, .follow hdir hmeet hrest⟩
      | cons step tail =>
          obtain ⟨rfl, htail : tail ++ second = rest⟩ := List.cons.inj hsteps
          have hsteps' : (path.steps ++ tail) ++ second = path.steps ++ rest := by
            rw [List.append_assoc, htail]
          obtain ⟨before, behind, middle, hsum, hfirst, hsecond⟩ := ih hsteps'
          exact ⟨before + 1, behind, middle, by omega, .follow hdir hmeet hfirst, hsecond⟩

theorem unique {other : Nat} {elsewhere : Location} (hleft : disk.Leads links here steps there)
    (hright : disk.Leads other here steps elsewhere) : links = other ∧ there = elsewhere := by
  induction hleft generalizing other elsewhere with
  | done =>
      cases hright
      exact ⟨rfl, rfl⟩
  | pass _ hpass _ ih =>
      cases hright with
      | pass _ hpass' hrest =>
          obtain rfl := hpass.unique hpass'
          exact ih hrest
      | follow _ hmeet _ => exact (hpass.not_meets hmeet).elim
  | follow _ hmeet _ ih =>
      cases hright with
      | pass _ hpass _ => exact (hpass.not_meets hmeet).elim
      | follow _ hmeet' hrest =>
          obtain rfl := hmeet.unique hmeet'
          obtain ⟨rfl, rfl⟩ := ih hrest
          exact ⟨rfl, rfl⟩

theorem walkLinks_append (h : disk.Leads used here first middle) (hend : isEnd second = false) :
    walkLinks disk aim (used + links) here (first ++ second) =
      walkLinks disk aim links middle second := by
  have hgoesOn (tail : List Step) : isEnd (tail ++ second) = false := isEnd_append tail hend
  induction h with
  | done => simp
  | @pass used here next there step rest hdir hpass hrest ih =>
      have hlast : step :: (rest ++ second) ≠ [.slash] := by
        intro h
        have := hgoesOn (step :: rest)
        rw [List.cons_append, h] at this
        cases this
      have hfile : aim = .file → ∀ name, step :: (rest ++ second) ≠ [.into name, .slash] := by
        intro _ name h
        have := hgoesOn rest
        rw [(List.cons.inj h).2] at this
        cases this
      rw [List.cons_append, walkLinks_pass hdir hpass hlast hfile, ih]
  | @follow used here there step rest path hdir hmeet hrest ih =>
      have hfile : aim = .file → rest ++ second ≠ [.slash] := by
        intro _ h
        have := hgoesOn rest
        rw [h] at this
        cases this
      rw [Nat.add_right_comm, List.cons_append,
        walkLinks_meet hdir hmeet hfile (fun _ => hgoesOn rest), ← List.append_assoc, ih]

/-- With links to spare, a walk through all links arrives where the steps lead. -/
theorem walkLinks_destination (h : disk.Leads used here steps there) (links : Nat) :
    ∃ slash, walkLinks disk .destination (used + links) here steps = .ok ⟨there, slash⟩ := by
  induction h with
  | done => exact ⟨false, walkLinks_nil⟩
  | @pass used here next there step rest hdir hpass hrest ih =>
      by_cases hlast : step :: rest = [.slash]
      · cases hlast
        cases hpass
        cases hrest
        exact ⟨true, walkLinks_last_slash⟩
      · rw [walkLinks_pass hdir hpass hlast (by simp)]
        exact ih
  | @follow used here there step rest path hdir hmeet hrest ih =>
      rw [Nat.add_right_comm, walkLinks_meet hdir hmeet (by simp) (by simp)]
      exact ih

/-- Where steps lead to something, a walk that looks for an entry finds one, though it may stop at
a link before. -/
theorem walkLinks_entry (h : disk.Leads used here steps there) (links : Nat)
    (hpresent : disk.at? there ≠ none) :
    ∃ target, walkLinks disk .entry (used + links) here steps = .ok target ∧
      disk.at? target.location ≠ none := by
  induction h with
  | done => exact ⟨_, walkLinks_nil, hpresent⟩
  | @pass used here next there step rest hdir hpass hrest ih =>
      by_cases hlast : step :: rest = [.slash]
      · cases hlast
        exact ⟨_, walkLinks_last_slash, by rw [hdir]; simp⟩
      · rw [walkLinks_pass hdir hpass hlast (by simp)]
        exact ih hpresent
  | @follow used here there step rest path hdir hmeet hrest ih =>
      by_cases hend : isEnd rest = true
      · obtain ⟨hsize, hlink⟩ := hmeet
        exact ⟨_, walkLinks_entry_link hdir hsize hlink hend, by rw [hlink]; simp⟩
      · rw [Nat.add_right_comm, walkLinks_meet hdir hmeet (by simp) (by simpa using hend)]
        exact ih hpresent

end Leads

theorem exists_leads_of_walkLinks (hend : isEnd second = false)
    (hwalk : walkLinks disk aim links here (first ++ second) = .ok target) :
    ∃ used middle, used ≤ links ∧ disk.Leads used here first middle ∧
      walkLinks disk aim (links - used) middle second = .ok target := by
  induction links using Nat.strongRecOn generalizing here first with
  | ind links ihLinks =>
      induction first generalizing here with
      | nil => exact ⟨0, here, Nat.zero_le links, .done, hwalk⟩
      | cons step rest ihSteps =>
          rw [List.cons_append] at hwalk
          have hgoesOn := isEnd_append rest hend
          rcases walkLinks_cons_cases hwalk with ⟨hlast, _⟩ | ⟨_, hdir, _, hstarts⟩
          · rw [(List.cons.inj hlast).2] at hgoesOn
            cases hgoesOn
          cases hstarts with
          | pass hpass hrest =>
              obtain ⟨used, middle, hused, hleads, harrives⟩ := ihSteps hrest
              exact ⟨used, middle, hused, .pass hdir hpass hleads, harrives⟩
          | @follow path fewer hmeet _ hlinks hrest =>
              subst hlinks
              rw [← List.append_assoc] at hrest
              obtain ⟨used, middle, hused, hleads, harrives⟩ :=
                ihLinks fewer (Nat.lt_succ_self fewer) hrest
              refine ⟨used + 1, middle, Nat.succ_le_succ hused, .follow hdir hmeet hleads, ?_⟩
              rwa [Nat.add_sub_add_right]
          | stop _ hstop =>
              rw [hgoesOn] at hstop
              cases hstop

/-! ### Trees that keep their ways -/

structure Grows (disk after : Disk) : Prop where
  workingDirectory : after.workingDirectory = disk.workingDirectory
  directory : ∀ {location}, disk.at? location = some .directory →
    after.at? location = some .directory
  link_iff : ∀ {location path}, after.at? location = some (.link path) ↔
    disk.at? location = some (.link path)

namespace Grows

theorem refl (disk : Disk) : disk.Grows disk := ⟨rfl, id, Iff.rfl⟩

theorem trans {last : Disk} (hfirst : disk.Grows after) (hsecond : after.Grows last) :
    disk.Grows last where
  workingDirectory := hsecond.workingDirectory.trans hfirst.workingDirectory
  directory h := hsecond.directory (hfirst.directory h)
  link_iff := hsecond.link_iff.trans hfirst.link_iff

theorem passes (hgrows : disk.Grows after) (h : disk.Passes here step next) :
    after.Passes here step next := by
  cases h with
  | slash => exact .slash
  | stay => exact .stay
  | up => exact .up
  | into hsize hnotLink =>
      exact .into hsize fun path hlink => hnotLink path (hgrows.link_iff.mp hlink)

theorem meets {path : Path} (hgrows : disk.Grows after) (h : disk.Meets here step path) :
    after.Meets here step path := by
  obtain ⟨hsize, hlink⟩ := h
  exact .link hsize (hgrows.link_iff.mpr hlink)

theorem leads (hgrows : disk.Grows after) (h : disk.Leads links here steps there) :
    after.Leads links here steps there := by
  induction h with
  | done => exact .done
  | pass hdir hpass _ ih => exact .pass (hgrows.directory hdir) (hgrows.passes hpass) ih
  | follow hdir hmeet _ ih => exact .follow (hgrows.directory hdir) (hgrows.meets hmeet) ih

theorem walkLinks_eq_ok (hgrows : disk.Grows after)
    (hwalk : walkLinks disk aim links here steps = .ok target) :
    walkLinks after aim links here steps = .ok target := by
  induction links using Nat.strongRecOn generalizing here steps with
  | ind links ihLinks =>
      induction steps generalizing here with
      | nil =>
          rw [walkLinks_nil] at hwalk ⊢
          exact hwalk
      | cons step rest ihSteps =>
          rcases walkLinks_cons_cases hwalk with ⟨hlast, rfl⟩ | ⟨hlast, hdir, hfile, hstarts⟩
          · rw [hlast, walkLinks_last_slash]
          · cases hstarts with
            | pass hpass hrest =>
                rw [walkLinks_pass (hgrows.directory hdir) (hgrows.passes hpass) hlast hfile]
                exact ihSteps hrest
            | @follow path fewer hmeet hgoesOn hlinks hrest =>
                subst hlinks
                have hnotSlash : aim = .file → rest ≠ [.slash] := by
                  rintro haim rfl
                  obtain ⟨_, _⟩ := hmeet
                  exact hfile haim _ rfl
                rw [walkLinks_meet (hgrows.directory hdir) (hgrows.meets hmeet) hnotSlash hgoesOn]
                exact ihLinks fewer (Nat.lt_succ_self fewer) hrest
            | stop haim hend hstep hmeet htarget =>
                subst haim hstep htarget
                obtain ⟨hsize, hlink⟩ := hgrows.meets hmeet
                exact walkLinks_entry_link (hgrows.directory hdir) hsize hlink hend

theorem leads_of_walkLinks (hgrows : disk.Grows after)
    (hwalk : walkLinks disk aim links here steps = .ok target)
    (htarget : after.at? target.location = some .directory) :
    ∃ used, used ≤ links ∧ after.Leads used here steps target.location := by
  have harrived (path : Path) : disk.at? target.location ≠ some (.link path) := by
    intro hlink
    have := (hgrows.link_iff.mpr hlink).symm.trans htarget
    cases this
  induction links using Nat.strongRecOn generalizing here steps with
  | ind links ihLinks =>
      induction steps generalizing here with
      | nil =>
          rw [walkLinks_nil] at hwalk
          cases hwalk
          exact ⟨0, Nat.zero_le links, .done⟩
      | cons step rest ihSteps =>
          rcases walkLinks_cons_cases hwalk with ⟨hlast, rfl⟩ | ⟨_, hdir, _, hstarts⟩
          · cases hlast
            exact ⟨0, Nat.zero_le links, .pass htarget .slash .done⟩
          · cases hstarts with
            | pass hpass hrest =>
                obtain ⟨used, hused, hleads⟩ := ihSteps hrest
                exact ⟨used, hused, .pass (hgrows.directory hdir) (hgrows.passes hpass) hleads⟩
            | @follow path fewer hmeet _ hlinks hrest =>
                subst hlinks
                obtain ⟨used, hused, hleads⟩ := ihLinks fewer (Nat.lt_succ_self fewer) hrest
                exact ⟨used + 1, Nat.succ_le_succ hused,
                  .follow (hgrows.directory hdir) (hgrows.meets hmeet) hleads⟩
            | @stop name path _ _ hstep hmeet hend =>
                subst hstep hend
                obtain ⟨_, hlink⟩ := hmeet
                exact absurd hlink (harrived path)

end Grows

end Scaffold.Disk
