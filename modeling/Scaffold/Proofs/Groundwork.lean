import Scaffold.Proofs.Locality

/-!
# Ancestors are made once

What the ancestors of a path come to, they come to again on the disk that they have left, and
nothing is made any more. Where they were all made, the longest of them is found at once. Where
something was made before they failed, the failing name came right after it: the way to it is clear,
so it is too long for any directory.
-/

namespace Scaffold

open Scaffold.Path (Step stems ofSegments stepOf?)

variable {disk middle after : Disk} {path stem : Path} {rest : List Path}

/-! ### The longest ancestor -/

namespace Path

theorem of_stems_eq_cons {segs : List (List Char)} (hslash : ∀ piece ∈ segs, '/' ∉ piece)
    (hup : .up ∉ segs.filterMap stepOf?) (h : stems segs = stem :: rest) :
    stem.ancestors = rest ∧ (rest = [] ∨ ∃ before name, stem.EndsWith before name) := by
  induction segs using List.reverseRecOn with
  | nil => cases h
  | append_singleton before segment ih =>
      rw [List.filterMap_append] at hup
      rcases stems_concat_cases before segment with
        ⟨hstems, _⟩ | ⟨rfl, rfl⟩ | ⟨component, hroot, hcomponent, hstems⟩
      · rw [hstems] at h
        exact ih (fun piece hpiece => hslash piece (List.mem_append_left _ hpiece))
          (fun hmem => hup (List.mem_append_left _ hmem)) h
      · rw [List.nil_append, stems_root] at h
        cases h
      · rw [hstems] at h
        obtain ⟨rfl, rfl⟩ := List.cons.inj h
        have hsegments := segments_ofSegments (by simp) hslash
        have hcloses : (ofSegments (before ++ [segment])).Closes before segment :=
          ⟨⟨component, hroot, hcomponent⟩, [], by rw [hsegments, List.append_nil],
            by simp [AreBlank]⟩
        refine ⟨hcloses.ancestors, ?_⟩
        cases component with
        | root => exact absurd rfl hroot
        | here =>
            obtain rfl := eq_nil_of_componentOf?_here hcomponent
            exact Or.inl rfl
        | up => exact absurd (by simp [eq_of_componentOf?_up hcomponent, stepOf?]) hup
        | name text =>
            obtain rfl := eq_of_componentOf?_name hcomponent
            refine Or.inr ⟨before, String.ofList segment, ?_, ?_⟩
            · rw [hsegments, String.toList_ofList]
            · rwa [String.toList_ofList]

theorem of_ancestors_eq_cons (hup : .up ∉ path.route) (h : path.ancestors = stem :: rest) :
    stem.ancestors = rest ∧ (rest = [] ∨ ∃ before name, stem.EndsWith before name) := by
  rcases path.closes_or_ancestors_eq_nil with ⟨before, segment, hcloses⟩ | hnil
  · obtain ⟨tail, hroute, _⟩ := hcloses.exists_route
    rw [hcloses.ancestors] at h
    apply of_stems_eq_cons _ _ h
    · exact fun piece hpiece => hcloses.slash_notMem piece (List.mem_append_left _ hpiece)
    · intro hmem
      exact hup (by rw [hroute]; exact List.mem_append_left _ hmem)
  · rw [hnil] at h
    cases h

end Path

namespace Disk

variable {aim : Aim} {links : Nat} {here : Location} {name : String} {steps : List Step}

theorem walkLinks_nameTooLong (hdir : disk.at? here = some .directory)
    (hsize : maxNameSize < name.utf8ByteSize) (haim : aim ≠ .file) :
    walkLinks disk aim links here (.into name :: steps) = .error .nameTooLong := by
  have hcheck := checkDirectory_of_directory hdir
  have hfile : ¬ (aim = .file ∧ steps = [.slash]) := fun h => haim h.1
  cases links <;>
    (simp only [walkLinks, walkSteps, hcheck, if_neg hfile, if_pos hsize]
     rfl)

theorem makeDirectory_of_walk {fault : Fault} (h : disk.walk .entry path = .error fault) :
    disk.makeDirectory path = .error fault := by
  rw [makeDirectory, h]
  rfl

def IsOverlong (disk : Disk) (path : Path) : Prop :=
  ∀ steps, walkLinks disk .entry maxLinks (startOf path disk.workingDirectory)
    (path.route ++ steps) = .error .nameTooLong

theorem IsOverlong.of_ancestor (h : disk.IsOverlong stem) (hancestor : stem.IsAncestorOf path) :
    disk.IsOverlong path := by
  intro steps
  obtain ⟨tail, hroute, _⟩ := hancestor.route
  rw [hroute, List.append_assoc, startOf, ← hancestor.isAbsolute]
  exact h (tail ++ steps)

theorem IsOverlong.makeDirectory (h : disk.IsOverlong path) (hcheck : checkPath path = .ok ()) :
    disk.makeDirectory path = .error .nameTooLong := by
  apply makeDirectory_of_walk
  rw [walk_of_checkPath hcheck]
  rcases path.steps_eq_append with hsteps | hsteps
  · rw [hsteps, ← List.append_nil path.route]
    exact h []
  · rw [hsteps]
    exact h [.slash]

theorem Opens.isOverlong {before : List (List Char)} (hends : path.EndsWith before name)
    (hopens : disk.Opens (startOf path disk.workingDirectory) (before.filterMap stepOf?) here)
    (hsize : maxNameSize < name.utf8ByteSize) : disk.IsOverlong path := by
  intro steps
  obtain ⟨hdir, used, hused, hleads⟩ := hopens
  obtain ⟨spare, hspare⟩ := Nat.exists_eq_add_of_le hused
  have hend : isEnd (.into name :: steps) = false := by cases steps <;> rfl
  rw [hends.route, List.append_assoc, List.singleton_append, hspare, hleads.walkLinks_append hend]
  exact walkLinks_nameTooLong hdir hsize (by simp)

end Disk

namespace Directory

variable {fault : Fault} {ensured : Except Fault Unit}

theorem checkPath_of_make_notFound (hempty : path.isEmpty = false)
    (hmake : (make path).runSilent disk = (.error .notFound, after)) :
    Disk.checkPath path = .ok () := by
  cases hcheck : Disk.checkPath path with
  | ok value => rfl
  | error fault =>
      have hfault : fault = .nulInPath ∨ fault = .nameTooLong := by
        unfold Disk.checkPath at hcheck
        simp only [hempty, Bool.false_eq_true, if_false] at hcheck
        split_ifs at hcheck <;> cases hcheck <;> simp
      have hwalk : disk.walk .entry path = .error fault := by
        rw [Disk.walk, hcheck]
        rfl
      have hfail := make_of_error (Disk.makeDirectory_of_walk hwalk)
        (by rcases hfault with rfl | rfl <;> simp)
      rw [hfail] at hmake
      rcases hfault with rfl | rfl <;> cases hmake

/-- A path that still cannot be made after its ancestors have been: nothing was made of them, or the
way to its name is clear, and then only the size of the name can be against it. -/
theorem isOverlong_of_make_error {before : List (List Char)} {name : String}
    (hends : path.EndsWith before name) (hup : .up ∉ path.route)
    (hcheck : Disk.checkPath path = .ok ())
    (hrun : (makeChain path.ancestors).runSilent disk = (.ok (), middle))
    (hmake : (make path).runSilent middle = (.error fault, after)) :
    middle = disk ∨ middle.IsOverlong path := by
  have hstart := checkPath_ancestors hcheck disk.workingDirectory
  have hslash : ∀ piece ∈ before, '/' ∉ piece := fun piece hpiece =>
    hends.slash_notMem piece (List.mem_append_left _ hpiece)
  have hclimbs : disk.Climbs (Disk.startOf path disk.workingDirectory)
      (before.filterMap stepOf?) := by
    rw [hends.route] at hup
    exact Disk.climbs_of_up_notMem fun hmem => hup (List.mem_append_left _ hmem)
  have hgrows := Script.grows_runSilent (makeChain path.ancestors) disk
  rw [hrun] at hgrows
  rw [hends.closes.ancestors] at hstart hrun
  refine (makeChain_cases hstart hslash hclimbs hrun).imp_right ?_
  rintro ⟨here, hopens, hempty⟩
  rw [← hgrows.workingDirectory] at hopens
  have hsize : Disk.maxNameSize < name.utf8ByteSize := by
    by_contra hshort
    obtain ⟨_, hmade, _⟩ := Disk.makeDirectory_of_opens hcheck hopens
      (hends.steps.trans hends.route) (Nat.not_lt.mp hshort) (hempty name)
    rw [make_of_ok hmade] at hmake
    cases hmake
  exact hopens.isOverlong hends hsize

/-- **What ancestors that fail leave behind.** Either nothing has been made, or the longest of them
has a name that is too long. -/
theorem makeChain_ancestors_error (hup : .up ∉ path.route)
    (hrun : (makeChain path.ancestors).runSilent disk = (.error fault, after)) :
    after = disk ∨ fault = .nameTooLong ∧ ∃ stem rest, path.ancestors = stem :: rest ∧
      Disk.checkPath stem = .ok () ∧ after.IsOverlong stem := by
  induction hchain : path.ancestors generalizing path fault after with
  | nil =>
      rw [hchain] at hrun
      cases hrun
  | cons stem rest ih =>
      rw [hchain] at hrun
      have hancestor : stem.IsAncestorOf path :=
        Path.isAncestorOf_of_mem_ancestors (by rw [hchain]; exact List.mem_cons_self)
      obtain ⟨hrest, hends⟩ := Path.of_ancestors_eq_cons hup hchain
      have hupStem := hancestor.up_notMem hup
      rcases hmake : (make stem).runSilent disk with ⟨missing | claim, made⟩
      case ok =>
        rw [makeChain_of_make_ok hmake] at hrun
        cases hrun
      obtain ⟨rfl, _⟩ := make_error hmake
      by_cases hmissing : missing = .notFound
      case neg =>
        rw [makeChain_of_make_error hmake hmissing] at hrun
        cases hrun
        exact Or.inl rfl
      rw [hmissing] at hmake
      have hcheck := checkPath_of_make_notFound hancestor.isEmpty hmake
      rcases habove : (makeChain rest).runSilent made with ⟨_ | _, above⟩
      case error =>
        rw [makeChain_of_ancestors_error hmake habove] at hrun
        cases hrun
        rw [← hrest] at habove
        refine (ih hupStem habove hrest).imp_right ?_
        rintro ⟨rfl, first, more, hfirst, _, hoverlong⟩
        have hstem : first.IsAncestorOf stem :=
          Path.isAncestorOf_of_mem_ancestors (by rw [hrest, hfirst]; exact List.mem_cons_self)
        exact ⟨rfl, stem, rest, rfl, hcheck, hoverlong.of_ancestor hstem⟩
      case ok =>
        rw [makeChain_of_ancestors_ok hmake habove] at hrun
        rcases hagain : (make stem).runSilent above with ⟨fault' | claim, last⟩
        all_goals
          rw [hagain] at hrun
          cases hrun
        obtain ⟨rfl, _⟩ := make_error hagain
        rcases hends with rfl | ⟨before, name, hends⟩
        · cases habove
          exact Or.inl rfl
        rw [← hrest] at habove
        refine (isOverlong_of_make_error hends hupStem hcheck habove hagain).imp_right ?_
        intro hoverlong
        have hfail := make_of_error (hoverlong.makeDirectory hcheck) (by simp)
        rw [hfail] at hagain
        cases hagain
        exact ⟨rfl, stem, rest, rfl, hcheck, hoverlong⟩

theorem isDirectory_of_makeChain
    (hrun : (makeChain (stem :: rest)).runSilent disk = (.ok (), after)) :
    after.isDirectory stem = true := by
  rcases makeChain_cons_cases hrun with ⟨_, _, hmake⟩ | ⟨_, _, _, _, _, hmake⟩ | ⟨_, hfault, _⟩
  · exact isDirectory_of_make hmake
  · exact isDirectory_of_make hmake
  · cases hfault

/-- Ancestors that have been made are found from then on. -/
theorem makeChain_of_grows {chain : List Path}
    (hrun : (makeChain chain).runSilent disk = (.ok (), middle)) (hgrows : middle.Grows after) :
    (makeChain chain).runSilent after = (.ok (), after) := by
  cases chain with
  | nil => rfl
  | cons stem rest =>
      have hdir := hgrows.isDirectory (isDirectory_of_makeChain hrun)
      exact makeChain_of_make_ok (make_of_isDirectory hdir)

/-- **Ancestors come to the same again.** On the disk that they have left, they change nothing and
come to what they came to before. -/
theorem makeChain_ancestors_again (hup : .up ∉ path.route)
    (hrun : (makeChain path.ancestors).runSilent disk = (ensured, after)) :
    (makeChain path.ancestors).runSilent after = (ensured, after) := by
  cases ensured with
  | ok _ => exact makeChain_of_grows hrun (.refl after)
  | error fault =>
      rcases makeChain_ancestors_error hup hrun with
        rfl | ⟨rfl, stem, rest, hchain, hcheck, hoverlong⟩
      · exact hrun
      · rw [hchain]
        exact makeChain_of_make_error
          (make_of_error (hoverlong.makeDirectory hcheck) (by simp)) (by simp)

/-- A claim comes to the same after the ancestors have been tried. -/
theorem claim_after_ancestors (hup : .up ∉ path.route) (disk : Disk) :
    (claim path).runSilent ((makeChain path.ancestors).runSilent disk).2 =
      (claim path).runSilent disk := by
  rcases hchain : (makeChain path.ancestors).runSilent disk with ⟨fault | _, above⟩
  all_goals have hagain := makeChain_ancestors_again hup hchain
  · obtain ⟨parent, hparent⟩ := @exists_ensureParent Empty Empty path
    simp only [claim, hparent, Script.runSilent_bind, hchain, hagain]
  · rw [claim_of_makeChain_ok hchain, claim_of_makeChain_ok hagain]

end Directory

end Scaffold
