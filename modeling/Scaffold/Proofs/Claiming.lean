import Scaffold.Proofs.Frame
import Scaffold.Proofs.Silent

/-!
# What a claim finds

A claim makes the ancestors of a directory before it looks at the directory. The main fact is that
this cannot bring the directory about unless a `..` leads out of an ancestor again: ancestors that
had to be made are empty, so below them nothing can be found, and where the directory was there
before, all ancestors were, too.
-/

namespace Scaffold

open Scaffold.Path (stems componentOf? ofSegments stepOf?)

variable {disk after : Disk} {path : Path} {start location : Location}
  {before segs : List (List Char)} {segment : List Char} {steps first second : List Path.Step}

namespace Disk

theorem Opens.of_append (h : disk.Opens start (first ++ second) location) :
    ∃ middle, disk.Opens start first middle := by
  obtain ⟨hdir, links, hlinks, hleads⟩ := h
  obtain ⟨used, behind, middle, hsum, hfirst, hsecond⟩ := hleads.split
  refine ⟨middle, ?_, used, by omega, hfirst⟩
  cases hsecond with
  | done => exact hdir
  | pass hmiddle | follow hmiddle => exact hmiddle

theorem Opens.up (h : disk.Opens start steps location) :
    disk.Opens start (steps ++ [.up]) location.tail := by
  obtain ⟨hdir, links, hlinks, hleads⟩ := h
  exact ⟨tail_directory hdir, links, hlinks, hleads.trans (.pass hdir .up .done)⟩

theorem Opens.stay (h : disk.Opens start steps location) :
    disk.Opens start (steps ++ [.stay]) location := by
  obtain ⟨hdir, links, hlinks, hleads⟩ := h
  exact ⟨hdir, links, hlinks, hleads.trans (.pass hdir .stay .done)⟩

theorem Opens.of_stay (h : disk.Opens start (steps ++ [.stay]) location) :
    disk.Opens start steps location := by
  obtain ⟨hdir, links, hlinks, hleads⟩ := h
  obtain ⟨used, behind, middle, hsum, hsteps, hstay⟩ := hleads.split
  cases hstay with
  | pass _ hpass hdone =>
      cases hpass
      cases hdone
      exact ⟨hdir, used, by omega, hsteps⟩
  | follow _ hmeet _ => cases hmeet

theorem Opens.of_into {name : String} (h : disk.Opens start (steps ++ [.into name]) location) :
    ∃ parent, disk.Opens start steps parent ∧ disk.at? (name :: parent) ≠ none := by
  obtain ⟨hdir, links, hlinks, hleads⟩ := h
  obtain ⟨used, behind, middle, hsum, hsteps, hinto⟩ := hleads.split
  cases hinto with
  | pass hparent hpass hdone =>
      cases hpass
      cases hdone
      exact ⟨middle, ⟨hparent, used, by omega, hsteps⟩, by rw [hdir]; simp⟩
  | follow hparent hmeet _ =>
      obtain ⟨_, hlink⟩ := hmeet
      exact ⟨middle, ⟨hparent, used, by omega, hsteps⟩, by rw [hlink]; simp⟩

def OpensEmpty (disk : Disk) (start : Location) (steps : List Path.Step) : Prop :=
  ∃ location, disk.Opens start steps location ∧ ∀ name, disk.at? (name :: location) = none

theorem OpensEmpty.not_opens_into {name : String} (h : disk.OpensEmpty start steps) :
    ¬ disk.Opens start (steps ++ [.into name]) location := by
  intro hinto
  obtain ⟨empty, hopens, hempty⟩ := h
  obtain ⟨parent, hparent, hpresent⟩ := hinto.of_into
  obtain rfl := hparent.unique hopens
  exact hpresent (hempty name)

theorem opensEmpty_of_makeDirectory (hmake : disk.makeDirectory path = .ok after) :
    after.OpensEmpty (startOf path disk.workingDirectory) path.route := by
  obtain ⟨location, hadds, hopens⟩ := makeDirectory_eq_ok hmake
  exact ⟨location, hopens, hadds.empty⟩

theorem Opens.stays {stays : List Path.Step} (h : disk.Opens start steps location)
    (hstays : ∀ step ∈ stays, step = .stay) : disk.Opens start (steps ++ stays) location := by
  induction stays generalizing steps with
  | nil => simpa using h
  | cons step rest ih =>
      rw [hstays step List.mem_cons_self, ← List.singleton_append, ← List.append_assoc]
      exact ih h.stay fun other hother => hstays other (List.mem_cons_of_mem _ hother)

/-- Below an ancestor that is new nothing can be found. -/
theorem isDirectory_of_makeDirectory_ancestor {stem : Path} (hstem : stem.IsAncestorOf path)
    (hup : .up ∉ path.components) (hmake : disk.makeDirectory stem = .ok after) :
    after.isDirectory path = false := by
  rw [← Bool.not_eq_true]
  intro hdir
  obtain ⟨_, location, hopens⟩ := isDirectory_eq_true_iff.mp hdir
  obtain ⟨_, hadds, _⟩ := makeDirectory_eq_ok hmake
  obtain ⟨new, hnew, hempty⟩ := opensEmpty_of_makeDirectory hmake
  obtain ⟨stays, name, rest, hroute, hstays⟩ := hstem.exists_into (Path.up_notMem_route hup)
  have hstart : startOf stem disk.workingDirectory = startOf path after.workingDirectory := by
    rw [hadds.workingDirectory, startOf, startOf, hstem.isAbsolute]
  have hsteps : path.route = stem.route ++ stays ++ [.into name] ++ rest := by
    rw [hroute]
    simp
  rw [hstart] at hnew
  rw [hsteps] at hopens
  obtain ⟨_, hinto⟩ := hopens.of_append
  exact OpensEmpty.not_opens_into ⟨new, hnew.stays hstays, hempty⟩ hinto

/-- Every `..` among the steps is taken from a directory that the steps before it lead to. -/
def Climbs (disk : Disk) (start : Location) (steps : List Path.Step) : Prop :=
  ∀ first rest, steps = first ++ .up :: rest → ∃ location, disk.Opens start first location

theorem climbs_of_up_notMem (hup : .up ∉ steps) : disk.Climbs start steps := by
  rintro first rest rfl
  exact absurd (by simp) hup

theorem Climbs.of_append (h : disk.Climbs start (first ++ second)) : disk.Climbs start first := by
  rintro before rest rfl
  exact h before (rest ++ second) (by simp)

theorem Opens.climbs (h : disk.Opens start steps location) : disk.Climbs start steps := by
  rintro first rest rfl
  exact h.of_append

end Disk

namespace Directory

theorem make_cases (disk : Disk) (path : Path) :
    (∃ after, (make path).runSilent disk = (.ok .created, after) ∧
        disk.makeDirectory path = .ok after) ∨
      (disk.isDirectory path = true ∧ (make path).runSilent disk = (.ok .existing, disk)) ∨
      (disk.isDirectory path = false ∧
        ∃ fault, (make path).runSilent disk = (.error fault, disk)) := by
  have hperform : (Call.makeDirectory path).perform disk =
      Call.changed disk (disk.makeDirectory path) := rfl
  cases hmake : disk.makeDirectory path with
  | ok after =>
      refine Or.inl ⟨after, ?_, rfl⟩
      rw [make, Script.runSilent_bind, Script.runSilent_perform, hperform, hmake]
      rfl
  | error fault =>
      cases hdir : disk.isDirectory path with
      | true =>
          rw [Disk.makeDirectory_of_isDirectory hdir] at hmake
          cases hmake
          refine Or.inr (Or.inl ⟨rfl, ?_⟩)
          rw [make, Script.runSilent_bind, Script.runSilent_perform, hperform,
            Disk.makeDirectory_of_isDirectory hdir]
          change (if disk.isDirectory path then _ else _ : Script Empty Empty _).runSilent disk = _
          rw [hdir]
          rfl
      | false =>
          refine Or.inr (Or.inr ⟨rfl, fault, ?_⟩)
          rw [make, Script.runSilent_bind, Script.runSilent_perform, hperform, hmake]
          cases fault with
          | alreadyExists =>
              change (if disk.isDirectory path then _ else _ :
                Script Empty Empty _).runSilent disk = _
              rw [hdir]
              rfl
          | _ => rfl

theorem make_of_isDirectory (h : disk.isDirectory path = true) :
    (make path).runSilent disk = (.ok .existing, disk) := by
  rcases make_cases disk path with ⟨after, _, hmake⟩ | ⟨_, hrun⟩ | ⟨hdir, _⟩
  · rw [Disk.makeDirectory_of_isDirectory h] at hmake
    cases hmake
  · exact hrun
  · rw [h] at hdir
    cases hdir

theorem make_created (hmake : (make path).runSilent disk = (.ok .created, after)) :
    disk.makeDirectory path = .ok after := by
  rcases make_cases disk path with ⟨made, hrun, hmade⟩ | ⟨_, hrun⟩ | ⟨_, _, hrun⟩
  all_goals
    rw [hrun] at hmake
    cases hmake
  exact hmade

theorem make_existing (hmake : (make path).runSilent disk = (.ok .existing, after)) :
    after = disk ∧ disk.isDirectory path = true := by
  rcases make_cases disk path with ⟨made, hrun, _⟩ | ⟨hdir, hrun⟩ | ⟨_, _, hrun⟩
  all_goals
    rw [hrun] at hmake
    cases hmake
  exact ⟨rfl, hdir⟩

theorem isDirectory_of_make {claim : Claim}
    (hmake : (make path).runSilent disk = (.ok claim, after)) : after.isDirectory path = true := by
  cases claim with
  | created => exact Disk.isDirectory_of_makeDirectory (make_created hmake)
  | existing =>
      obtain ⟨rfl, hdir⟩ := make_existing hmake
      exact hdir

theorem make_error {fault : Fault} (hmake : (make path).runSilent disk = (.error fault, after)) :
    after = disk ∧ disk.isDirectory path = false := by
  rcases make_cases disk path with ⟨made, hrun, _⟩ | ⟨_, hrun⟩ | ⟨hdir, _, hrun⟩
  all_goals
    rw [hrun] at hmake
    cases hmake
  exact ⟨rfl, hdir⟩

/-! ### Ancestors -/

section Chain

variable {ancestors : List Path} {above : Disk} {claim : Claim} {fault : Fault}

theorem makeChain_of_make_ok (hmake : (make path).runSilent disk = (.ok claim, after)) :
    (makeChain (path :: ancestors)).runSilent disk = (.ok (), after) := by
  rw [makeChain, Script.runSilent_bind, hmake]
  rfl

theorem makeChain_of_make_error (hmake : (make path).runSilent disk = (.error fault, after))
    (hfault : fault ≠ .notFound) :
    (makeChain (path :: ancestors)).runSilent disk = (.error fault, after) := by
  rw [makeChain, Script.runSilent_bind, hmake]
  cases fault with
  | notFound => exact absurd rfl hfault
  | _ => rfl

theorem makeChain_of_ancestors_ok (hmake : (make path).runSilent disk = (.error .notFound, after))
    (hancestors : (makeChain ancestors).runSilent after = (.ok (), above)) :
    (makeChain (path :: ancestors)).runSilent disk =
      (((make path).runSilent above).1.map fun _ => (), ((make path).runSilent above).2) := by
  rw [makeChain, Script.runSilent_bind, hmake]
  change (makeChain ancestors >>= _ : Script Empty Empty _).runSilent after = _
  rw [Script.runSilent_bind, hancestors]
  change (make path >>= _ : Script Empty Empty _).runSilent above = _
  rw [Script.runSilent_bind]
  rfl

theorem makeChain_of_ancestors_error
    (hmake : (make path).runSilent disk = (.error .notFound, after))
    (hancestors : (makeChain ancestors).runSilent after = (.error fault, above)) :
    (makeChain (path :: ancestors)).runSilent disk = (.error fault, above) := by
  rw [makeChain, Script.runSilent_bind, hmake]
  change (makeChain ancestors >>= _ : Script Empty Empty _).runSilent after = _
  rw [Script.runSilent_bind, hancestors]
  rfl

theorem makeChain_cons_cases {ensured : Except Fault Unit}
    (hrun : (makeChain (path :: ancestors)).runSilent disk = (ensured, after)) :
    (ensured = .ok () ∧ ∃ claim, (make path).runSilent disk = (.ok claim, after)) ∨
      (ensured = .ok () ∧ disk.isDirectory path = false ∧ ∃ above claim,
        (makeChain ancestors).runSilent disk = (.ok (), above) ∧
          (make path).runSilent above = (.ok claim, after)) ∨
      ∃ fault, ensured = .error fault ∧ (after.isDirectory path = false ∨
        (makeChain ancestors).runSilent disk = (.error fault, after)) := by
  rcases hmake : (make path).runSilent disk with ⟨fault | claim, made⟩
  case ok =>
    rw [makeChain_of_make_ok hmake] at hrun
    cases hrun
    exact Or.inl ⟨rfl, claim, rfl⟩
  obtain ⟨hsame, hdir⟩ := make_error hmake
  rw [hsame] at hmake
  by_cases hfault : fault = .notFound
  · rw [hfault] at hmake
    rcases hancestors : (makeChain ancestors).runSilent disk with ⟨fault | _, above⟩
    · rw [makeChain_of_ancestors_error hmake hancestors] at hrun
      cases hrun
      exact Or.inr (Or.inr ⟨fault, rfl, Or.inr rfl⟩)
    · rw [makeChain_of_ancestors_ok hmake hancestors] at hrun
      rcases hagain : (make path).runSilent above with ⟨fault | claim, last⟩
      · obtain ⟨rfl, hmissing⟩ := make_error hagain
        rw [hagain] at hrun
        cases hrun
        exact Or.inr (Or.inr ⟨fault, rfl, Or.inl hmissing⟩)
      · rw [hagain] at hrun
        cases hrun
        exact Or.inr (Or.inl ⟨rfl, hdir, above, claim, rfl, hagain⟩)
  · rw [makeChain_of_make_error hmake hfault] at hrun
    cases hrun
    exact Or.inr (Or.inr ⟨fault, rfl, Or.inl hdir⟩)

end Chain

theorem makeChain_of_opens (hstart : ∀ stem ∈ stems segs,
      Disk.checkPath stem = .ok () ∧ Disk.startOf stem disk.workingDirectory = start)
    (hslash : ∀ piece ∈ segs, '/' ∉ piece)
    (hopens : disk.Opens start (segs.filterMap stepOf?) location) :
    (makeChain (stems segs)).runSilent disk = (.ok (), disk) := by
  induction segs using List.reverseRecOn generalizing location with
  | nil => rfl
  | append_singleton before segment ih =>
      rcases Path.stems_concat_cases before segment with
        ⟨hstems, hstep⟩ | ⟨rfl, rfl⟩ | ⟨component, hroot, h, hstems⟩
      · rw [hstems] at hstart ⊢
        have hbefore : ∀ piece ∈ before, '/' ∉ piece := fun piece hpiece =>
          hslash piece (List.mem_append_left _ hpiece)
        rw [List.filterMap_append] at hopens
        rcases hstep with hstep | hstep
        · exact ih hstart hbefore (by simpa [hstep] using hopens)
        · have hstay : disk.Opens start (before.filterMap stepOf? ++ [.stay]) location := by
            simpa [hstep] using hopens
          exact ih hstart hbefore hstay.of_stay
      · rw [List.nil_append, Path.stems_root]
        rfl
      · rw [hstems] at hstart ⊢
        obtain ⟨hcheck, hhere⟩ := hstart _ List.mem_cons_self
        have hroute : (ofSegments (before ++ [segment])).route =
            (before ++ [segment]).filterMap stepOf? := by
          rw [Path.route, Path.segments_ofSegments (by simp) hslash]
        have hdir : disk.isDirectory (ofSegments (before ++ [segment])) = true :=
          Disk.isDirectory_eq_true_iff.mpr
            ⟨hcheck, location, by rw [hhere, hroute]; exact hopens⟩
        exact makeChain_of_make_ok (make_of_isDirectory hdir)

theorem isDirectory_of_opensEmpty {component : Path.Component} (hroot : component ≠ .root)
    (h : componentOf? before.isEmpty segment = some component) (hup : segment ≠ ['.', '.'])
    (hne : before ≠ []) (hslash : ∀ piece ∈ before ++ [segment], '/' ∉ piece)
    (hstart : Disk.startOf (ofSegments (before ++ [segment])) disk.workingDirectory = start)
    (hempty : disk.OpensEmpty start (before.filterMap stepOf?)) :
    disk.isDirectory (ofSegments (before ++ [segment])) = false := by
  rw [← Bool.not_eq_true]
  intro hdir
  obtain ⟨_, location, hopens⟩ := Disk.isDirectory_eq_true_iff.mp hdir
  rw [hstart, Path.route, Path.segments_ofSegments (by simp) hslash, List.filterMap_append]
    at hopens
  rcases Path.componentOf?_cases hroot h with ⟨hnil, _⟩ | hsegment | hstep
  · exact hne hnil
  · exact hup hsegment
  · have hinto : disk.Opens start
        (before.filterMap stepOf? ++ [.into (String.ofList segment)]) location := by
      simpa [hstep] using hopens
    exact hempty.not_opens_into hinto

/-- A directory that is found only after its ancestors have been made was not made with them: it
would stand in one that is new and empty, or would have been found before through a `..`. -/
theorem isDirectory_after_ancestors {component : Path.Component} (hroot : component ≠ .root)
    (h : componentOf? before.isEmpty segment = some component)
    (hslash : ∀ piece ∈ before ++ [segment], '/' ∉ piece)
    (hcheck : Disk.checkPath (ofSegments (before ++ [segment])) = .ok ())
    (hstart : Disk.startOf (ofSegments (before ++ [segment])) disk.workingDirectory = start)
    (hclimbs : disk.Climbs start ((before ++ [segment]).filterMap stepOf?))
    (hrun : (makeChain (stems before)).runSilent disk = (.ok (), after))
    (hcases : after = disk ∨ after.OpensEmpty start (before.filterMap stepOf?))
    (hdir : after.isDirectory (ofSegments (before ++ [segment])) = true) :
    disk.isDirectory (ofSegments (before ++ [segment])) = true := by
  rcases hcases with rfl | hempty
  · exact hdir
  have hgrows := Script.grows_runSilent (makeChain (stems before)) disk
  rw [hrun] at hgrows
  by_cases hne : before = []
  · subst hne
    cases hrun
    exact hdir
  by_cases hup : segment = ['.', '.']
  · subst hup
    rw [List.filterMap_append] at hclimbs
    obtain ⟨location, hopens⟩ := hclimbs (before.filterMap stepOf?) [] rfl
    refine Disk.isDirectory_eq_true_iff.mpr ⟨hcheck, location.tail, ?_⟩
    rw [hstart, Path.route, Path.segments_ofSegments (by simp) hslash, List.filterMap_append]
    exact hopens.up
  · rw [← hgrows.workingDirectory] at hstart
    have hmissing := isDirectory_of_opensEmpty hroot h hup hne hslash hstart hempty
    rw [hdir] at hmissing
    cases hmissing

/-- **What ancestors come to.** Either all of them were there, or the last of them is new and
empty. -/
theorem makeChain_cases (hstart : ∀ stem ∈ stems segs,
      Disk.checkPath stem = .ok () ∧ Disk.startOf stem disk.workingDirectory = start)
    (hslash : ∀ piece ∈ segs, '/' ∉ piece)
    (hclimbs : disk.Climbs start (segs.filterMap stepOf?))
    (hrun : (makeChain (stems segs)).runSilent disk = (.ok (), after)) :
    after = disk ∨ after.OpensEmpty start (segs.filterMap stepOf?) := by
  induction segs using List.reverseRecOn generalizing after with
  | nil =>
      cases hrun
      exact Or.inl rfl
  | append_singleton before segment ih =>
      have hbefore : ∀ piece ∈ before, '/' ∉ piece := fun piece hpiece =>
        hslash piece (List.mem_append_left _ hpiece)
      have hclimbsBefore : disk.Climbs start (before.filterMap stepOf?) := by
        rw [List.filterMap_append] at hclimbs
        exact hclimbs.of_append
      rcases Path.stems_concat_cases before segment with
        ⟨hstems, hstep⟩ | ⟨rfl, rfl⟩ | ⟨component, hroot, h, hstems⟩
      · rw [hstems] at hstart hrun
        refine (ih hstart hbefore hclimbsBefore hrun).imp_right ?_
        rintro ⟨location, hopens, hempty⟩
        refine ⟨location, ?_, hempty⟩
        rw [List.filterMap_append]
        rcases hstep with hstep | hstep
        · simpa [hstep] using hopens
        · simpa [hstep] using hopens.stay
      · rw [List.nil_append, Path.stems_root] at hrun
        cases hrun
        exact Or.inl rfl
      · rw [hstems] at hstart hrun
        obtain ⟨hcheck, hhere⟩ := hstart _ List.mem_cons_self
        have hcreated {made : Disk} (hwd : made.workingDirectory = disk.workingDirectory)
            (hmake : (make (ofSegments (before ++ [segment]))).runSilent made =
              (.ok .created, after)) :
            after.OpensEmpty start ((before ++ [segment]).filterMap stepOf?) := by
          have hempty := Disk.opensEmpty_of_makeDirectory (make_created hmake)
          rwa [hwd, hhere, Path.route, Path.segments_ofSegments (by simp) hslash] at hempty
        rcases makeChain_cons_cases hrun with
          ⟨_, claim, hmake⟩ | ⟨_, hdir, above, claim, habove, hmake⟩ | ⟨fault, hfault, _⟩
        · cases claim with
          | created => exact Or.inr (hcreated rfl hmake)
          | existing => exact Or.inl (make_existing hmake).1
        · have hgrows := Script.grows_runSilent (makeChain (stems before)) disk
          rw [habove] at hgrows
          cases claim with
          | created => exact Or.inr (hcreated hgrows.workingDirectory hmake)
          | existing =>
              obtain ⟨rfl, hfound⟩ := make_existing hmake
              have hcases := ih (fun stem hstem => hstart stem (List.mem_cons_of_mem _ hstem))
                hbefore hclimbsBefore habove
              rw [isDirectory_after_ancestors hroot h hslash hcheck hhere hclimbs habove hcases
                hfound] at hdir
              cases hdir
        · cases hfault

/-- Where ancestors cannot be made, there is no directory that the last of them leads to. -/
theorem makeChain_error {fault : Fault} (hstart : ∀ stem ∈ stems segs,
      Disk.checkPath stem = .ok () ∧ Disk.startOf stem disk.workingDirectory = start)
    (hslash : ∀ piece ∈ segs, '/' ∉ piece)
    (hrun : (makeChain (stems segs)).runSilent disk = (.error fault, after)) (location : Location) :
    ¬ after.Opens start (segs.filterMap stepOf?) location := by
  induction segs using List.reverseRecOn generalizing location with
  | nil => cases hrun
  | append_singleton before segment ih =>
      have hbefore : ∀ piece ∈ before, '/' ∉ piece := fun piece hpiece =>
        hslash piece (List.mem_append_left _ hpiece)
      rw [List.filterMap_append]
      intro hopens
      obtain ⟨middle, hmiddle⟩ := hopens.of_append
      rcases Path.stems_concat_cases before segment with
        ⟨hstems, _⟩ | ⟨rfl, rfl⟩ | ⟨component, hroot, h, hstems⟩
      · rw [hstems] at hstart hrun
        exact ih hstart hbefore hrun middle hmiddle
      · rw [List.nil_append, Path.stems_root] at hrun
        cases hrun
      · rw [hstems] at hstart hrun
        obtain ⟨hcheck, hhere⟩ := hstart _ List.mem_cons_self
        have hgrows := Script.grows_runSilent
          (makeChain (ofSegments (before ++ [segment]) :: stems before)) disk
        rw [hrun] at hgrows
        have hfound : after.isDirectory (ofSegments (before ++ [segment])) = true := by
          refine Disk.isDirectory_eq_true_iff.mpr ⟨hcheck, location, ?_⟩
          rw [hgrows.workingDirectory, hhere, Path.route, Path.segments_ofSegments (by simp) hslash,
            List.filterMap_append]
          exact hopens
        rcases makeChain_cons_cases hrun with ⟨hok, _⟩ | ⟨hok, _⟩ | ⟨_, hfault, hmissing | habove⟩
        · cases hok
        · cases hok
        · rw [hfound] at hmissing
          cases hmissing
        · cases hfault
          exact ih (fun stem hstem => hstart stem (List.mem_cons_of_mem _ hstem)) hbefore habove
            middle hmiddle

/-! ### Claims -/

section Claim

variable {above : Disk} {fault : Fault} {failure : DiskFailure}

/-- What a path may spell, its ancestors may spell, and they start where it starts. -/
theorem checkPath_ancestors (hcheck : Disk.checkPath path = .ok ()) (here : Location) :
    ∀ stem ∈ path.ancestors,
      Disk.checkPath stem = .ok () ∧ Disk.startOf stem here = Disk.startOf path here := by
  intro stem hstem
  have hancestor := Path.isAncestorOf_of_mem_ancestors hstem
  refine ⟨Disk.checkPath_of_isPrefix hcheck hancestor.isPrefix.text hancestor.isEmpty, ?_⟩
  rw [Disk.startOf, Disk.startOf, hancestor.isAbsolute]

theorem makeChain_ancestors_of_opens (hcloses : path.Closes before segment)
    (hcheck : Disk.checkPath path = .ok ())
    (hopens : disk.Opens (Disk.startOf path disk.workingDirectory) (before.filterMap stepOf?)
      location) : (makeChain path.ancestors).runSilent disk = (.ok (), disk) := by
  have hstart := checkPath_ancestors hcheck disk.workingDirectory
  rw [hcloses.ancestors] at hstart ⊢
  exact makeChain_of_opens hstart
    (fun piece hpiece => hcloses.slash_notMem piece (List.mem_append_left _ hpiece)) hopens

theorem makeChain_ancestors_of_isDirectory (hdir : disk.isDirectory path = true) :
    (makeChain path.ancestors).runSilent disk = (.ok (), disk) := by
  obtain ⟨hcheck, location, hopens⟩ := Disk.isDirectory_eq_true_iff.mp hdir
  rcases path.closes_or_ancestors_eq_nil with ⟨before, segment, hcloses⟩ | hnil
  · obtain ⟨rest, hroute, _⟩ := hcloses.exists_route
    rw [hroute] at hopens
    obtain ⟨parent, hparent⟩ := hopens.of_append
    exact makeChain_ancestors_of_opens hcloses hcheck hparent
  · rw [hnil]
    rfl

theorem makeChain_ancestors_alters (path : Path) (disk : Disk) :
    disk.Alters (· ∈ path.ancestors) (fun _ _ => False)
      ((makeChain path.ancestors).runSilent disk).2 :=
  (only_makeChain fun _ hstem => hstem).isWithin.alters_runSilent disk

theorem ensureParent_of_makeChain {ensured : Except Fault Unit}
    (hchain : (makeChain path.ancestors).runSilent disk = (ensured, above)) :
    ∃ parent, (ensureParent path).runSilent disk =
      (ensured.mapError (.makeDirectory parent), above) := by
  obtain ⟨parent, hparent⟩ := @exists_ensureParent Empty Empty path
  refine ⟨parent, ?_⟩
  rw [hparent, Script.runSilent_bind, hchain]
  rfl

theorem claim_of_makeChain_ok
    (hchain : (makeChain path.ancestors).runSilent disk = (.ok (), above)) :
    (claim path).runSilent disk =
      (((make path).runSilent above).1.mapError (.makeDirectory path),
        ((make path).runSilent above).2) := by
  obtain ⟨parent, hparent⟩ := ensureParent_of_makeChain hchain
  rw [claim, Script.runSilent_bind, hparent]
  change (make path >>= _ : Script Empty Empty _).runSilent above = _
  rw [Script.runSilent_bind]
  rfl

theorem claim_of_makeChain_error
    (hchain : (makeChain path.ancestors).runSilent disk = (.error fault, above)) :
    ∃ failure, (claim path).runSilent disk = (.error failure, above) := by
  obtain ⟨parent, hparent⟩ := ensureParent_of_makeChain hchain
  refine ⟨.makeDirectory parent fault, ?_⟩
  rw [claim, Script.runSilent_bind, hparent]
  rfl

/-- A claim that comes to something has made the ancestors, and then made the path. -/
theorem claim_eq_ok {claimed : Claim}
    (hrun : (claim path).runSilent disk = (.ok claimed, after)) :
    ∃ above, (makeChain path.ancestors).runSilent disk = (.ok (), above) ∧
      (make path).runSilent above = (.ok claimed, after) := by
  rcases hchain : (makeChain path.ancestors).runSilent disk with ⟨fault | _, above⟩
  · obtain ⟨failure, hclaim⟩ := claim_of_makeChain_error hchain
    rw [hclaim] at hrun
    cases hrun
  · rw [claim_of_makeChain_ok hchain] at hrun
    rcases hmake : (make path).runSilent above with ⟨fault | made, last⟩
    all_goals
      rw [hmake] at hrun
      cases hrun
    exact ⟨above, rfl, hmake⟩

theorem isDirectory_of_claim {claimed : Claim}
    (hrun : (claim path).runSilent disk = (.ok claimed, after)) :
    after.isDirectory path = true := by
  obtain ⟨above, _, hmake⟩ := claim_eq_ok hrun
  exact isDirectory_of_make hmake

theorem claim_of_isDirectory (hdir : disk.isDirectory path = true) :
    (claim path).runSilent disk = (.ok .existing, disk) := by
  rw [claim_of_makeChain_ok (makeChain_ancestors_of_isDirectory hdir), make_of_isDirectory hdir]
  rfl

/-- **A claim finds only what was there.** Unless a `..` leads out of what the claim itself has to
make first, a directory that it finds was there before, and nothing has been made. -/
theorem claim_existing
    (hclimbs : disk.Climbs (Disk.startOf path disk.workingDirectory) path.route)
    (hrun : (claim path).runSilent disk = (.ok .existing, after)) :
    after = disk ∧ disk.isDirectory path = true := by
  obtain ⟨above, hchain, hmake⟩ := claim_eq_ok hrun
  obtain ⟨rfl, hfound⟩ := make_existing hmake
  suffices after = disk from ⟨this, this ▸ hfound⟩
  obtain ⟨hcheck, location, hopens⟩ := Disk.isDirectory_eq_true_iff.mp hfound
  have hgrows := Script.grows_runSilent (makeChain path.ancestors) disk
  rw [hchain] at hgrows
  rw [hgrows.workingDirectory] at hopens
  rcases path.closes_or_ancestors_eq_nil with ⟨before, segment, hcloses⟩ | hnil
  case inr =>
    rw [hnil] at hchain
    cases hchain
    rfl
  obtain ⟨rest, hroute, hrest⟩ := hcloses.exists_route
  rw [hroute] at hopens hclimbs
  by_cases hne : before = []
  · rw [hcloses.ancestors, hne] at hchain
    cases hchain
    rfl
  have hcases := hchain
  rw [hcloses.ancestors] at hcases
  have hstart := checkPath_ancestors hcheck disk.workingDirectory
  rw [hcloses.ancestors] at hstart
  rcases makeChain_cases hstart
    (fun piece hpiece => hcloses.slash_notMem piece (List.mem_append_left _ hpiece))
    hclimbs.of_append hcases with hsame | hempty
  · exact hsame
  obtain ⟨step, rfl | ⟨name, rfl⟩, stays, rfl⟩ := hrest hne
  · obtain ⟨parent, hparent⟩ := hclimbs _ _ rfl
    rw [makeChain_ancestors_of_opens hcloses hcheck hparent] at hchain
    cases hchain
    rfl
  · rw [← List.singleton_append, ← List.append_assoc] at hopens
    obtain ⟨parent, hparent⟩ := hopens.of_append
    exact absurd hparent hempty.not_opens_into

theorem claim_created (hrun : (claim path).runSilent disk = (.ok .created, after)) :
    ∃ above, disk.Alters (· ∈ path.ancestors) (fun _ _ => False) above ∧
      above.makeDirectory path = .ok after := by
  obtain ⟨above, hchain, hmake⟩ := claim_eq_ok hrun
  refine ⟨above, ?_, make_created hmake⟩
  have halters := makeChain_ancestors_alters path disk
  rwa [hchain] at halters

theorem claim_error (hrun : (claim path).runSilent disk = (.error failure, after)) :
    after.isDirectory path = false := by
  rw [← Bool.not_eq_true]
  intro hfound
  obtain ⟨hcheck, location, hopens⟩ := Disk.isDirectory_eq_true_iff.mp hfound
  have hgrows := Script.grows_runSilent (claim path) disk
  rw [hrun] at hgrows
  rw [hgrows.workingDirectory] at hopens
  rcases hchain : (makeChain path.ancestors).runSilent disk with ⟨fault | _, above⟩
  · obtain ⟨failure, hclaim⟩ := claim_of_makeChain_error hchain
    rw [hclaim] at hrun
    cases hrun
    rcases path.closes_or_ancestors_eq_nil with ⟨before, segment, hcloses⟩ | hnil
    · obtain ⟨rest, hroute, _⟩ := hcloses.exists_route
      have hstart := checkPath_ancestors hcheck disk.workingDirectory
      rw [hcloses.ancestors] at hstart hchain
      rw [hroute] at hopens
      obtain ⟨parent, hparent⟩ := hopens.of_append
      exact makeChain_error hstart
        (fun piece hpiece => hcloses.slash_notMem piece (List.mem_append_left _ hpiece)) hchain
        parent hparent
    · rw [hnil] at hchain
      cases hchain
  · rw [claim_of_makeChain_ok hchain] at hrun
    rcases hmake : (make path).runSilent above with ⟨fault | made, last⟩
    all_goals
      rw [hmake] at hrun
      cases hrun
    have hmissing := (make_error hmake).2
    rw [(make_error hmake).1] at hfound
    rw [hfound] at hmissing
    cases hmissing

end Claim

end Directory

/-! ### Files -/

theorem File.write_of_writeFile {content : ByteArray} {name : String}
    (hends : path.EndsWith before name) (hwrite : disk.writeFile path content = .ok after) :
    (File.write path content).runSilent disk = (.ok (), after) := by
  obtain ⟨_, _, _, hwalk⟩ := Disk.writeFile_eq_ok hwrite
  obtain ⟨parent, hopens⟩ :=
    Disk.exists_opens_of_walk (hends.steps.trans hends.route) hwalk
  obtain ⟨_, hparent⟩ := Directory.ensureParent_of_makeChain
    (Directory.makeChain_ancestors_of_opens hends.closes (Disk.checkPath_of_walk hwalk) hopens)
  have hperform : (Call.writeFile path content).perform disk =
      Call.changed disk (disk.writeFile path content) := rfl
  rw [File.write, Script.runSilent_bind, hparent]
  change (Script.perform (.writeFile path content) >>= _ : Script Empty Empty _).runSilent disk = _
  rw [Script.runSilent_bind, Script.runSilent_perform, hperform, hwrite]
  rfl

end Scaffold
