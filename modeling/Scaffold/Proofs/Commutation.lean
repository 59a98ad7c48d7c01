import Scaffold.Proofs.Catalogue
import Scaffold.Proofs.Confinement
import Scaffold.Proofs.Groundwork

/-!
# Turns that commute

Two types that go into one output directory share nothing but the way to it. Where no link stands,
each turn looks and works beside the other's directory, and what both make first, the ancestors,
comes to the same whoever makes it. So the order of the turns can be told neither from their replies
nor from the disk.
-/

namespace Scaffold

variable {disk after left right : Disk} {here : Location} {path : Path} {content : ByteArray}

/-! ### Ancestors in their places -/

theorem Disk.at?_place_of_ancestor {stem : Path} (hfree : disk.IsLinkFree) (hup : .up ∉ path.route)
    (hancestor : stem.IsAncestorOf path) (hdir : disk.isDirectory path = true) :
    disk.at? (stem.place disk.workingDirectory) = some .directory := by
  obtain ⟨rel, hrel, hplace⟩ := hancestor.exists_place hup disk.workingDirectory
  have hpath := at?_place_of_isDirectory hfree hup hdir
  rw [hplace] at hpath
  exact at?_of_append hrel (by rw [hpath]; simp)

theorem Directory.at?_place_of_mem_ancestors {stem : Path} (hfree : disk.IsLinkFree)
    (hup : .up ∉ path.route)
    (hrun : (makeChain path.ancestors).runSilent disk = (.ok (), disk))
    (hstem : stem ∈ path.ancestors) :
    disk.at? (stem.place disk.workingDirectory) = some .directory := by
  obtain ⟨first, rest, hchain⟩ := List.exists_cons_of_ne_nil (List.ne_nil_of_mem hstem)
  have hfirst : first.IsAncestorOf path :=
    Path.isAncestorOf_of_mem_ancestors (by rw [hchain]; exact List.mem_cons_self)
  have hupFirst := hfirst.up_notMem hup
  rw [hchain] at hrun hstem
  have hdir := isDirectory_of_makeChain hrun
  rcases List.mem_cons.mp hstem with rfl | hrest
  · exact Disk.at?_place_of_isDirectory hfree hupFirst hdir
  · rw [← (Path.of_ancestors_eq_cons hup hchain).1] at hrest
    exact Disk.at?_place_of_ancestor hfree hupFirst (Path.isAncestorOf_of_mem_ancestors hrest) hdir

namespace Turn

variable {turn other first second : Turn} {root out : Path}

structure GoesInto (turn : Turn) (root out : Path) : Prop where
  name : checkName turn.name = .ok ()
  root : turn.creation.root = root
  outputDir : turn.creation.config.outputDir = out

/-! ### What a turn touches -/

def directories (turn : Turn) : List Path := turn.destination :: turn.destination.ancestors

namespace GoesInto

section Paths

variable (h : turn.GoesInto root out)

include h

theorem destination_eq :
    turn.destination = (root.join out).join ⟨(Symbols.derive turn.name).fileBase⟩ := by
  rw [← h.root, ← h.outputDir]
  rfl

theorem endsWith :
    turn.destination.EndsWith (root.join out).joint (Symbols.derive turn.name).fileBase := by
  rw [h.destination_eq]
  exact endsWith_fileBase h.name _

theorem ancestors : turn.destination.ancestors = Path.stems (root.join out).joint :=
  h.endsWith.closes.ancestors

theorem ancestors_eq (hother : other.GoesInto root out) :
    other.destination.ancestors = turn.destination.ancestors :=
  hother.ancestors.trans h.ancestors.symm

theorem place (here : Location) :
    turn.destination.place here =
      (Symbols.derive turn.name).fileBase :: (root.join out).place here := by
  have hends := h.endsWith
  rw [h.destination_eq] at hends ⊢
  have habsolute := isAbsolute_file turn.name ""
  rw [String.append_empty] at habsolute
  exact Path.place_join hends habsolute here

theorem up_notMem (hroot : .up ∉ root.components) (hout : .up ∉ out.components) :
    .up ∉ turn.destination.route := by
  rw [← h.root] at hroot
  rw [← h.outputDir] at hout
  exact Creation.up_notMem_destination h.name hroot hout

theorem exists_file (hwritten : turn.creation.MayWrite path content) :
    ∃ file, path = turn.destination.join ⟨file⟩ ∧
      path.EndsWith turn.destination.joint file ∧ (Path.mk file).isAbsolute = false := by
  rcases hwritten with ⟨rfl, _⟩ | ⟨rfl, _⟩
  · exact ⟨_, rfl, endsWith_file h.name (by decide) _, isAbsolute_file _ _⟩
  · exact ⟨_, rfl, endsWith_file h.name (by decide) _, isAbsolute_file _ _⟩

theorem ancestors_file (hwritten : turn.creation.MayWrite path content) :
    path.ancestors = turn.directories := by
  obtain ⟨_, _, hends, _⟩ := h.exists_file hwritten
  exact h.endsWith.ancestors hends

theorem place_file (hwritten : turn.creation.MayWrite path content) (here : Location) :
    ∃ file, path.place here = file :: turn.destination.place here := by
  obtain ⟨file, rfl, hends, hrelative⟩ := h.exists_file hwritten
  exact ⟨file, Path.place_join hends hrelative here⟩

theorem isAllowed : turn.creation.IsAllowed (· ∈ turn.directories) turn.creation.MayWrite where
  destination := List.mem_cons_self
  ancestors _ hstem := List.mem_cons_of_mem _ hstem
  headerAncestors := by
    rw [h.ancestors_file (Or.inl ⟨rfl, rfl⟩)]
    exact fun stem hstem => hstem
  sourceAncestors := by
    rw [h.ancestors_file (Or.inr ⟨rfl, rfl⟩)]
    exact fun stem hstem => hstem
  header := Or.inl ⟨rfl, rfl⟩
  source := Or.inr ⟨rfl, rfl⟩

variable (hroot : .up ∉ root.components) (hout : .up ∉ out.components)

include hroot hout

theorem up_notMem_directory (hpath : path ∈ turn.directories) : .up ∉ path.route := by
  have hup := h.up_notMem hroot hout
  rcases List.mem_cons.mp hpath with rfl | hstem
  · exact hup
  · exact (Path.isAncestorOf_of_mem_ancestors hstem).up_notMem hup

theorem up_notMem_file (hwritten : turn.creation.MayWrite path content) : .up ∉ path.route := by
  obtain ⟨file, rfl, hends, _⟩ := h.exists_file hwritten
  rw [hends.route, Path.filterMap_stepOf?_joint]
  simpa using h.up_notMem hroot hout

end Paths

/-! ### Beside the other directory -/

section Beside

variable (h : turn.GoesInto root out) (hother : other.GoesInto root out)
  (hne : turn.name ≠ other.name)

include h hother hne

theorem place_ne (here : Location) :
    turn.destination.place here ≠ other.destination.place here := by
  rw [h.place, hother.place]
  intro heq
  exact hne (Symbols.fileBase_injective (List.cons.inj heq).1)

theorem not_below (here : Location) :
    ¬ other.destination.place here <:+ turn.destination.place here := by
  intro hbelow
  refine h.place_ne hother hne here (hbelow.eq_of_length ?_).symm
  rw [h.place, hother.place]
  rfl

variable (hroot : .up ∉ root.components) (hout : .up ∉ out.components)

include hroot hout

theorem directory_beside (hpath : path ∈ turn.directories) (here : Location) :
    ¬ other.destination.place here <:+ path.place here := by
  intro hbelow
  apply h.not_below hother hne here
  rcases List.mem_cons.mp hpath with rfl | hstem
  · exact hbelow
  · obtain ⟨rel, _, hplace⟩ := (Path.isAncestorOf_of_mem_ancestors hstem).exists_place
      (h.up_notMem hroot hout) here
    rw [hplace]
    exact hbelow.trans (List.suffix_append rel _)

omit hroot hout in
theorem file_beside (hwritten : turn.creation.MayWrite path content) (here : Location) :
    ¬ other.destination.place here <:+ path.place here := by
  intro hbelow
  obtain ⟨file, hplace⟩ := h.place_file hwritten here
  rw [hplace] at hbelow
  rcases List.suffix_cons_iff.mp hbelow with heq | hbelow
  · have hlength := congrArg List.length heq
    rw [List.length_cons, h.place, hother.place] at hlength
    simp at hlength
  · exact h.not_below hother hne here hbelow

/-- A turn stays beside the directory of another type. -/
theorem staysBeside (here : Location) :
    (turn.creation.run Script.query : Script Path (Except Empty Bool) _).Only
      (Call.StaysBeside (other.destination.place here) here) := by
  refine h.isAllowed.only_run (fun c hc => ?_) (.query _)
  have hdirectory {path : Path} (hpath : path ∈ turn.directories) :
      .up ∉ path.route ∧ ¬ other.destination.place here <:+ path.place here :=
    ⟨h.up_notMem_directory hroot hout hpath, h.directory_beside hother hne hroot hout hpath here⟩
  have hfile {path : Path} {content : ByteArray} (hpath : turn.creation.MayWrite path content) :
      .up ∉ path.route ∧ ¬ other.destination.place here <:+ path.place here :=
    ⟨h.up_notMem_file hroot hout hpath, h.file_beside hother hne hpath here⟩
  cases c with
  | makeDirectory path | isDirectory path => exact ⟨(hdirectory hc).1, (hdirectory hc).2⟩
  | writeFile path content => exact ⟨(hfile hc).1, (hfile hc).2⟩
  | isFile path | readText path => exact hc.elim

/-- **Neither turn sees what the other leaves in its directory.** -/
theorem take_congr (hleft : left.IsLinkFree) (hright : right.IsLinkFree)
    (hagrees : left.AgreesBeside right (other.destination.place left.workingDirectory)) :
    (turn.take left).1 = (turn.take right).1 ∧
      (turn.take left).2.AgreesBeside (turn.take right).2
        (other.destination.place left.workingDirectory) := by
  have honly := h.staysBeside hother hne hroot hout left.workingDirectory
  obtain ⟨hvalue, hstate, hdisk⟩ := honly.run_congr rfl hagrees hleft hright
    (Script.recorded fun _ (state : Unit) => (.ok turn.consent, state)) ([], ())
  refine ⟨?_, hdisk⟩
  change Reply.mk _ _ = Reply.mk _ _
  rw [Creation.carryOut, Creation.carryOut, hvalue, hstate]

end Beside

/-! ### What a turn leaves alone -/

section Frame

variable (h : turn.GoesInto root out) (hroot : .up ∉ root.components)
  (hout : .up ∉ out.components) (hfree : disk.IsLinkFree)

include h hroot hout hfree

/-- Where all ancestors are there, a turn changes nothing but its own directory. -/
theorem take_agreesBeside
    (hsettled : (Directory.makeChain turn.destination.ancestors).runSilent disk = (.ok (), disk)) :
    disk.AgreesBeside (turn.take disk).2 (turn.destination.place disk.workingDirectory) := by
  have honly : (turn.creation.run Script.query : Script Path (Except Empty Bool) _).Only
      (Call.IsWithin (· ∈ turn.directories) turn.creation.MayWrite) :=
    h.isAllowed.only_run (fun _ => Call.IsBuilding.isWithin) (.query _)
  have halters := honly.alters
    (Script.recorded fun _ (state : Unit) => (.ok turn.consent, state)) disk ([], ())
  change disk.Alters _ _ (turn.take disk).2 at halters
  have hafter : (turn.take disk).2.IsLinkFree := halters.toGrows.isLinkFree hfree
  have hwd := halters.workingDirectory
  apply halters.agreesBeside
  case hmade =>
    intro path location hpath hleads hnone
    rw [hleads.eq_place hafter (h.up_notMem_directory hroot hout hpath), hwd] at hnone ⊢
    rcases List.mem_cons.mp hpath with rfl | hstem
    · exact List.suffix_rfl
    · have hup := h.up_notMem hroot hout
      rw [Directory.at?_place_of_mem_ancestors hfree hup hsettled hstem] at hnone
      cases hnone
  case hwritten =>
    intro path content location hpath hleads
    obtain ⟨file, hplace⟩ := h.place_file hpath disk.workingDirectory
    rw [hleads.eq_place hafter (h.up_notMem_file hroot hout hpath), hwd, hplace]
    exact List.suffix_cons file _

end Frame

end GoesInto

/-! ### What comes of the ancestors -/

theorem take_of_isDryRun (hdry : turn.creation.isDryRun = true) (disk : Disk) :
    turn.take disk =
      (⟨.ok (turn.creation.report (.preview turn.blueprint.files)), []⟩, disk) := by
  rw [take, Creation.carryOut_of_isDryRun hdry]
  rfl

theorem grows_take (turn : Turn) (disk : Disk) : disk.Grows (turn.take disk).2 :=
  Script.grows_run _ _ disk _

section Wet

variable (hwet : turn.creation.isDryRun = false)

include hwet

theorem take_after_ancestors (hup : .up ∉ turn.destination.route) (disk : Disk) :
    turn.take ((Directory.makeChain turn.destination.ancestors).runSilent disk).2 =
      turn.take disk := by
  have hagain := Directory.claim_after_ancestors hup disk
  rcases hclaim : (Directory.claim turn.destination).runSilent disk with ⟨claimed, after⟩
  rw [hclaim] at hagain
  rw [take, take, Creation.carryOut, Creation.carryOut,
    Creation.run_of_claim _ _ hwet hclaim, Creation.run_of_claim _ _ hwet hagain]

theorem take_of_ancestors_error {fault : Fault}
    (hrun : (Directory.makeChain turn.destination.ancestors).runSilent disk =
      (.error fault, after)) : (turn.take disk).2 = after := by
  obtain ⟨failure, hclaim⟩ := Directory.claim_of_makeChain_error hrun
  rw [take, Creation.carryOut, Creation.run_of_claim _ _ hwet hclaim]
  rfl

end Wet

structure CommutesWith (first second : Turn) (disk : Disk) : Prop where
  first_reply : (first.take (second.take disk).2).1 = (first.take disk).1
  second_reply : (second.take (first.take disk).2).1 = (second.take disk).1
  workingDirectory : (second.take (first.take disk).2).2.workingDirectory =
    (first.take (second.take disk).2).2.workingDirectory
  at? : ∀ location, (second.take (first.take disk).2).2.at? location =
    (first.take (second.take disk).2).2.at? location

namespace CommutesWith

theorem symm (h : first.CommutesWith second disk) : second.CommutesWith first disk where
  first_reply := h.second_reply
  second_reply := h.first_reply
  workingDirectory := h.workingDirectory.symm
  at? location := (h.at? location).symm

theorem of_unchanged {reply : Reply} (hfirst : first.take disk = (reply, disk))
    (hlater : first.take (second.take disk).2 = (reply, (second.take disk).2)) :
    first.CommutesWith second disk := by
  constructor <;> simp [hfirst, hlater]

theorem of_take_eq (hfirst : first.take after = first.take disk)
    (hsecond : second.take after = second.take disk) (h : first.CommutesWith second after) :
    first.CommutesWith second disk := by
  obtain ⟨hfirstReply, hsecondReply, hworkingDirectory, hat⟩ := h
  rw [hfirst, hsecond] at hfirstReply hsecondReply hworkingDirectory
  refine ⟨hfirstReply, hsecondReply, hworkingDirectory, fun location => ?_⟩
  rw [← hfirst, ← hsecond]
  exact hat location

end CommutesWith

section Commute

variable (hroot : .up ∉ root.components) (hout : .up ∉ out.components)
  (hfirst : first.GoesInto root out) (hsecond : second.GoesInto root out)
  (hne : first.name ≠ second.name) (hfree : disk.IsLinkFree)

include hroot hout hfirst hsecond hne hfree

/-- Where all ancestors are there, a turn is replied to as if it came first, and all that is not in
the other's directory is then as if it came last. -/
theorem take_beside
    (hsettled : (Directory.makeChain first.destination.ancestors).runSilent disk =
      (.ok (), disk)) :
    (first.take (second.take disk).2).1 = (first.take disk).1 ∧
      ∀ location, ¬ second.destination.place disk.workingDirectory <:+ location →
        (second.take (first.take disk).2).2.at? location =
          (first.take (second.take disk).2).2.at? location := by
  have hshared := hfirst.ancestors_eq hsecond
  have hgrowsFirst := first.grows_take disk
  have hgrowsSecond := second.grows_take disk
  have hsecondAlone := hsecond.take_agreesBeside hroot hout hfree (by rw [hshared]; exact hsettled)
  have hsecondLater := hsecond.take_agreesBeside hroot hout (hgrowsFirst.isLinkFree hfree)
    (by rw [hshared]; exact Directory.makeChain_of_grows hsettled hgrowsFirst)
  rw [hgrowsFirst.workingDirectory] at hsecondLater
  obtain ⟨hreply, hbeside⟩ := hfirst.take_congr hsecond hne hroot hout hfree
    (hgrowsSecond.isLinkFree hfree) hsecondAlone
  refine ⟨hreply.symm, fun location hlocation => ?_⟩
  rw [← hsecondLater.at? location hlocation, hbeside.at? location hlocation]

theorem commutesWith_of_settled
    (hsettled : (Directory.makeChain first.destination.ancestors).runSilent disk =
      (.ok (), disk)) : first.CommutesWith second disk := by
  have hshared := hfirst.ancestors_eq hsecond
  obtain ⟨hfirstReply, hbesideSecond⟩ :=
    take_beside hroot hout hfirst hsecond hne hfree hsettled
  obtain ⟨hsecondReply, hbesideFirst⟩ :=
    take_beside hroot hout hsecond hfirst hne.symm hfree (by rw [hshared]; exact hsettled)
  refine ⟨hfirstReply, hsecondReply, ?_, fun location => ?_⟩
  · rw [(grows_take _ _).workingDirectory, (grows_take _ _).workingDirectory,
      (grows_take _ _).workingDirectory, (grows_take _ _).workingDirectory]
  · by_cases hbelow : second.destination.place disk.workingDirectory <:+ location
    · refine (hbesideFirst location fun hfirstBelow => ?_).symm
      -- No location is in both directories: they are equally deep, and differ.
      have hplaces := List.suffix_of_suffix_length_le hfirstBelow hbelow
        (by rw [hfirst.place, hsecond.place]; exact Nat.le_refl _)
      exact hsecond.not_below hfirst hne.symm disk.workingDirectory hplaces
    · exact hbesideSecond location hbelow

/-- **Turns for different types commute.** Where no link stands, two turns for different names in
one output directory come to the same in either order, however each of them ends: what they reply,
and all that stands anywhere. -/
theorem commutesWith : first.CommutesWith second disk := by
  by_cases hdryFirst : first.creation.isDryRun = true
  · exact .of_unchanged (take_of_isDryRun hdryFirst _) (take_of_isDryRun hdryFirst _)
  by_cases hdrySecond : second.creation.isDryRun = true
  · exact .symm (.of_unchanged (take_of_isDryRun hdrySecond _) (take_of_isDryRun hdrySecond _))
  rw [Bool.not_eq_true] at hdryFirst hdrySecond
  have hshared := hfirst.ancestors_eq hsecond
  have hup := hfirst.up_notMem hroot hout
  -- Both turns try the ancestors first, and find them settled where the other one has tried them.
  rcases hchain : (Directory.makeChain first.destination.ancestors).runSilent disk with
    ⟨fault | _, above⟩
  all_goals
    have hsettled := Directory.makeChain_ancestors_again hup hchain
    have hafterFirst := take_after_ancestors hdryFirst hup disk
    have hafterSecond := take_after_ancestors hdrySecond (hsecond.up_notMem hroot hout) disk
    rw [hchain] at hafterFirst
    rw [hshared, hchain] at hafterSecond
    refine .of_take_eq hafterFirst hafterSecond ?_
  case error =>
    have hblocked : first.take above = ((first.take above).1, above) :=
      Prod.ext rfl (take_of_ancestors_error hdryFirst hsettled)
    apply CommutesWith.of_unchanged hblocked
    rwa [take_of_ancestors_error hdrySecond (by rw [hshared]; exact hsettled)]
  case ok =>
    have hgrows := Script.grows_runSilent (Directory.makeChain first.destination.ancestors) disk
    rw [hchain] at hgrows
    exact commutesWith_of_settled hroot hout hfirst hsecond hne (hgrows.isLinkFree hfree) hsettled

end Commute

/-- The place for the second directory is taken by a file, so the second turn fails. -/
theorem commutesWith_of_file_in_place :
    let types := Disk.workspace.set "types" ["workspace"] .directory (by decide)
    let disk := types.set "CBGadget" ["types", "workspace"] (.file "".toUTF8) (by decide)
    let config : Config := { Config.default with outputDir := ⟨"types"⟩ }
    let request (name : String) : Request :=
      ⟨name, "Ada", "A type.", { year := 2012, month := 1, day := 1 }⟩
    let first : Turn := ⟨⟨request "Widget", config, ⟨"."⟩, false⟩, true⟩
    let second : Turn := ⟨⟨request "Gadget", config, ⟨"."⟩, false⟩, true⟩
    (first.take disk).1.value.toOption.map Report.outcome = some (.written true
        [⟨"./types/CBWidget/CBWidget.h"⟩, ⟨"./types/CBWidget/CBWidget.c"⟩]) ∧
      (second.take disk).1.value.toOption.isNone = true ∧ first.CommutesWith second disk := by
  intro types disk config request first second
  have hfree : disk.IsLinkFree := (Disk.isLinkFree_workspace.set _ (by simp)).set _ (by simp)
  have hfirst : first.GoesInto ⟨"."⟩ ⟨"types"⟩ := ⟨by decide, rfl, rfl⟩
  have hsecond : second.GoesInto ⟨"."⟩ ⟨"types"⟩ := ⟨by decide, rfl, rfl⟩
  exact ⟨by decide +kernel, by decide +kernel,
    commutesWith (by decide) (by decide) hfirst hsecond (by decide) hfree⟩

end Turn

end Scaffold
