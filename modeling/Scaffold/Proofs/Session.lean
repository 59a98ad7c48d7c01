import Scaffold.Proofs.Catalogue
import Scaffold.Proofs.Completion

/-!
# Sessions keep a catalogue

From an empty root, every session of creations whose paths can be used answers as the catalogue says
and leaves a disk that shows the catalogue.
-/

namespace Scaffold

open Scaffold.Path (Step descend stepOf?)

structure Disk.IsEmptyRoot (disk : Disk) (root : Path) (here : Location) : Prop where
  nul : '\x00' ∉ root.text.toList
  opens : disk.Opens (Disk.startOf root disk.workingDirectory) root.route here
  empty : ∀ name, disk.at? (name :: here) = none

structure Path.IsOutputDir (out : Path) : Prop where
  relative : out.isAbsolute = false
  up : .up ∉ out.components
  nul : '\x00' ∉ out.text.toList
  size : ∀ name, .name name ∈ out.components →
    (String.ofList name).utf8ByteSize ≤ Disk.maxNameSize

structure Turn.Fits (turn : Turn) (root out : Path) : Prop where
  root : turn.creation.root = root
  outputDir : turn.creation.config.outputDir = out
  name : turn.creation.request.checkName = .ok ()
  nameSize : (Symbols.derive turn.name).headerFile.utf8ByteSize ≤ Disk.maxNameSize
  pathSize : turn.creation.isDryRun = false →
    (turn.blueprint.headerPath turn.destination).text.utf8ByteSize ≤ Disk.maxPathSize

theorem Path.IsOutputDir.isPlain {out : Path} (h : out.IsOutputDir) :
    ∀ step ∈ out.route, step.IsPlain := by
  intro step hstep
  rcases Path.mem_route_cases hstep with rfl | ⟨_, hup⟩ | ⟨name, rfl, hname⟩
  · exact .stay
  · exact absurd hup h.up
  · exact .into (h.size name hname)

theorem Path.isOutputDir_ofSegments {segs : List (List Char)} (hne : segs ≠ [])
    (hsegs : ∀ segment ∈ segs, segment ≠ [] ∧ segment ≠ ['.', '.'] ∧ '/' ∉ segment ∧
      '\x00' ∉ segment ∧ (String.ofList segment).utf8ByteSize ≤ Disk.maxNameSize) :
    (Path.ofSegments segs).IsOutputDir := by
  have hslash : ∀ segment ∈ segs, '/' ∉ segment := fun segment hsegment =>
    (hsegs segment hsegment).2.2.1
  have hparts : (Path.ofSegments segs).components ⊆ (Path.partsAfter [] segs).map Prod.fst := by
    rw [Path.components, Path.parts, Path.segments_ofSegments hne hslash]
    split
    · simp
    · exact List.Subset.refl _
  have hcomponents {component : Path.Component}
      (h : component ∈ (Path.ofSegments segs).components) :
      ∃ isFirst, ∃ segment ∈ segs, Path.componentOf? isFirst segment = some component := by
    obtain ⟨part, hpart, rfl⟩ := List.mem_map.mp (hparts h)
    exact Path.exists_of_mem_partsAfter hpart
  constructor
  case relative =>
    obtain ⟨first, rest, rfl⟩ := List.exists_cons_of_ne_nil hne
    have hfirst := hsegs first List.mem_cons_self
    exact Path.isAbsolute_ofSegments_cons hfirst.1 hfirst.2.2.1
  case up =>
    intro h
    obtain ⟨isFirst, segment, hsegment, hup⟩ := hcomponents h
    exact (hsegs segment hsegment).2.1 (Path.eq_of_componentOf?_up hup)
  case nul =>
    rw [Path.toList_ofSegments]
    intro h
    rcases Path.mem_intercalate h with h | ⟨segment, hsegment, h⟩
    · exact absurd h (by decide)
    · exact (hsegs segment hsegment).2.2.2.1 h
  case size =>
    intro name h
    obtain ⟨isFirst, segment, hsegment, hname⟩ := hcomponents h
    obtain rfl := Path.eq_of_componentOf?_name hname
    exact (hsegs segment hsegment).2.2.2.2

theorem isEmptyRoot_workspace : Disk.workspace.IsEmptyRoot ⟨"."⟩ ["workspace"] where
  nul := by decide
  opens := ⟨by decide, 0, Nat.zero_le _, .pass (by decide) .stay .done⟩
  empty := by
    intro name
    simp [Disk.workspace, Disk.at?, Disk.set, Disk.empty, Entry.lookup, Entry.assign]

/-! ### The paths of a turn -/

namespace Turn.Fits

variable {turn : Turn} {root out : Path}

section Paths

variable (h : turn.Fits root out) (hout : out.IsOutputDir)

include h hout

theorem endsWith :
    turn.destination.EndsWith (root.joint ++ out.joint) (Symbols.derive turn.name).fileBase := by
  have hends := Creation.endsWith_destination h.name
  rw [h.root, h.outputDir, Path.joint_join hout.relative] at hends
  exact hends

theorem route :
    turn.destination.route =
      root.route ++ (out.route ++ [.into (Symbols.derive turn.name).fileBase]) := by
  rw [(h.endsWith hout).route, List.filterMap_append, Path.filterMap_stepOf?_joint,
    Path.filterMap_stepOf?_joint, List.append_assoc]

omit hout in
theorem destination_eq :
    turn.destination = (root.join out).join ⟨(Symbols.derive turn.name).fileBase ++ ""⟩ := by
  rw [String.append_empty, ← h.root, ← h.outputDir]
  rfl

theorem isAbsolute : turn.destination.isAbsolute = root.isAbsolute := by
  rw [h.destination_eq, Path.isAbsolute_join (isAbsolute_file _ _),
    Path.isAbsolute_join hout.relative]

theorem checkPath_file (hnul : '\x00' ∉ root.text.toList) {ending : String}
    (hslash : '/' ∉ ending.toList) (hending : '\x00' ∉ ending.toList)
    (hsize : (turn.destination.join
      ⟨(Symbols.derive turn.name).fileBase ++ ending⟩).text.utf8ByteSize ≤ Disk.maxPathSize) :
    Disk.checkPath (turn.destination.join ⟨(Symbols.derive turn.name).fileBase ++ ending⟩) =
      .ok () := by
  have hdir : '\x00' ∉ turn.destination.text.toList := by
    rw [h.destination_eq]
    refine Path.notMem_join (isAbsolute_file _ _) (by decide) ?_ ?_
    · exact Path.notMem_join hout.relative (by decide) hnul hout.nul
    · exact notMem_file h.name (by decide) (by decide)
  have hfile := notMem_file h.name (by decide) hending
  have hempty : (turn.destination.join
      ⟨(Symbols.derive turn.name).fileBase ++ ending⟩).isEmpty = false :=
    (endsWith_file h.name hslash turn.destination).isEmpty
  refine Disk.checkPath_eq_ok_iff.mpr ⟨?_, by simpa [Path.isEmpty] using hempty, hsize⟩
  exact Path.notMem_join (isAbsolute_file _ _) (by decide) hdir hfile

theorem checkPath_header (hnul : '\x00' ∉ root.text.toList)
    (hwet : turn.creation.isDryRun = false) :
    Disk.checkPath (turn.blueprint.headerPath turn.destination) = .ok () :=
  h.checkPath_file hout hnul (by decide) (by decide) (h.pathSize hwet)

theorem checkPath_source (hnul : '\x00' ∉ root.text.toList)
    (hwet : turn.creation.isDryRun = false) :
    Disk.checkPath (turn.blueprint.sourcePath turn.destination) = .ok () := by
  refine h.checkPath_file hout hnul (by decide) (by decide) ?_
  have hsize : ((Symbols.derive turn.name).fileBase ++ ".c").utf8ByteSize =
      ((Symbols.derive turn.name).fileBase ++ ".h").utf8ByteSize := by
    rw [String.utf8ByteSize_append, String.utf8ByteSize_append]
    rfl
  rw [Path.size_join_eq turn.destination (isAbsolute_file _ _) (isAbsolute_file _ _) hsize]
  exact h.pathSize hwet

theorem checkPath_destination (hnul : '\x00' ∉ root.text.toList)
    (hwet : turn.creation.isDryRun = false) : Disk.checkPath turn.destination = .ok () :=
  Disk.checkPath_of_isPrefix (h.checkPath_header hout hnul hwet)
    (Path.isPrefix_join _ (isAbsolute_file _ _)) (h.endsWith hout).isEmpty

end Paths

theorem fileBaseSize (h : turn.Fits root out) :
    (Symbols.derive turn.name).fileBase.utf8ByteSize ≤ Disk.maxNameSize := by
  have hsize := h.nameSize
  rw [Symbols.headerFile, String.utf8ByteSize_append] at hsize
  omega

theorem sourceSize (h : turn.Fits root out) :
    (Symbols.derive turn.name).sourceFile.utf8ByteSize ≤ Disk.maxNameSize := by
  have hsize := h.nameSize
  rw [Symbols.headerFile, String.utf8ByteSize_append] at hsize
  rw [Symbols.sourceFile, String.utf8ByteSize_append]
  exact hsize

end Turn.Fits

/-! ### The files of a turn -/

theorem Turn.Fits.write {turn : Turn} {root out : Path} {disk : Disk} {here : Location}
    (h : turn.Fits root out) (hout : out.IsOutputDir) (hnul : '\x00' ∉ root.text.toList)
    (hwet : turn.creation.isDryRun = false)
    (hopens : disk.Opens (Disk.startOf turn.destination disk.workingDirectory)
      turn.destination.route here)
    (hfree : ∀ file, file = (Symbols.derive turn.name).headerFile ∨
        file = (Symbols.derive turn.name).sourceFile →
      disk.at? (file :: here) = none ∨ ∃ old, disk.at? (file :: here) = some (.file old)) :
    ∃ middle after, (turn.blueprint.write turn.destination).runSilent disk =
        (.ok turn.files, after) ∧
      disk.Puts middle ((Symbols.derive turn.name).headerFile :: here)
        (.file turn.blueprint.render.header.toUTF8) ∧
      middle.Puts after ((Symbols.derive turn.name).sourceFile :: here)
        (.file turn.blueprint.render.source.toUTF8) := by
  have hway {ending : String} {now : Disk}
      (hnow : now.Opens (Disk.startOf turn.destination now.workingDirectory)
        turn.destination.route here) :
      now.Opens (Disk.startOf (turn.destination.join
          ⟨(Symbols.derive turn.name).fileBase ++ ending⟩) now.workingDirectory)
        (turn.destination.joint.filterMap stepOf?) here := by
    rw [Disk.startOf, Path.isAbsolute_join (isAbsolute_file _ _), Path.filterMap_stepOf?_joint]
    exact hnow
  have hfreeHeader := hfree _ (Or.inl rfl)
  obtain ⟨middle, hheader, hputs⟩ := File.write_of_opens turn.blueprint.render.header.toUTF8
    (endsWith_file h.name (by decide) turn.destination)
    (h.checkPath_header hout hnul hwet) (hway hopens) h.nameSize hfreeHeader
  have hopens' : middle.Opens (Disk.startOf turn.destination middle.workingDirectory)
      turn.destination.route here := by
    rw [hputs.workingDirectory]
    exact (hputs.grows hfreeHeader).opens hopens
  have hother : (Symbols.derive turn.name).sourceFile :: here ≠
      (Symbols.derive turn.name).headerFile :: here := by
    intro heq
    exact Symbols.headerFile_ne_sourceFile _ _ (List.cons.inj heq).1.symm
  have hfreeSource := hfree _ (Or.inr rfl)
  have hsame : middle.at? ((Symbols.derive turn.name).sourceFile :: here) =
      disk.at? ((Symbols.derive turn.name).sourceFile :: here) :=
    (hputs.at? _).trans (if_neg hother)
  rw [← hsame] at hfreeSource
  obtain ⟨after, hsource, hputs'⟩ := File.write_of_opens turn.blueprint.render.source.toUTF8
    (endsWith_file h.name (by decide) turn.destination)
    (h.checkPath_source hout hnul hwet) (hway hopens') h.sourceSize hfreeSource
  exact ⟨middle, after, Blueprint.write_of_files hheader hsource, hputs, hputs'⟩

/-! ### One turn -/

section Turn

variable {turn : Turn} {root out : Path} {start disk : Disk} {here : Location}
  {catalogue : Catalogue}

theorem Turn.Fits.startOf (h : turn.Fits root out) (hout : out.IsOutputDir) (here : Location) :
    Disk.startOf turn.destination here = Disk.startOf root here := by
  rw [Disk.startOf, Disk.startOf, h.isAbsolute hout]

theorem Turn.Fits.opens_home (h : turn.Fits root out) (hout : out.IsOutputDir)
    (hopens : disk.Opens (Disk.startOf root disk.workingDirectory) root.route here)
    (hdir : disk.at? (Catalogue.home (descend [] out.route) turn.name ++ here) =
      some .directory) :
    disk.Opens (Disk.startOf turn.destination disk.workingDirectory) turn.destination.route
      (Catalogue.home (descend [] out.route) turn.name ++ here) := by
  have hplain : ∀ step ∈ out.route ++ [.into (Symbols.derive turn.name).fileBase],
      step.IsPlain := by
    intro step hstep
    rcases List.mem_append.mp hstep with hstep | hstep
    · exact hout.isPlain step hstep
    · rw [List.mem_singleton.mp hstep]
      exact .into h.fileBaseSize
  have hend : descend here (out.route ++ [.into (Symbols.derive turn.name).fileBase]) =
      Catalogue.home (descend [] out.route) turn.name ++ here := by
    rw [Path.descend_append, Path.descend_eq here out.route]
    rfl
  rw [h.startOf hout, h.route hout, ← hend]
  exact hopens.descend hplain (by rw [hend]; exact hdir)

theorem Mirrors.opens_root {place : Location} (h : Mirrors catalogue start disk here place)
    (hroot : start.IsEmptyRoot root here) :
    disk.Opens (Disk.startOf root disk.workingDirectory) root.route here := by
  rw [h.workingDirectory]
  exact (h.grows hroot.empty).opens hroot.opens

variable (h : Mirrors catalogue start disk here (descend [] out.route))
  (hroot : start.IsEmptyRoot root here) (hout : out.IsOutputDir) (hfits : turn.Fits root out)

include hroot hout hfits h

theorem Mirrors.claim (hwet : turn.creation.isDryRun = false)
    (hname : catalogue turn.name = none) :
    ∃ above, (Directory.claim turn.destination).runSilent disk = (.ok .created, above) ∧
      disk.Fills above here (Catalogue.home (descend [] out.route) turn.name) := by
  have hrouteRoot := Path.filterMap_stepOf?_joint root
  have hrouteOut := Path.filterMap_stepOf?_joint out
  have hopens : disk.Opens (Disk.startOf turn.destination disk.workingDirectory)
      (root.joint.filterMap stepOf?) here := by
    rw [hfits.startOf hout, hrouteRoot]
    exact h.opens_root hroot
  have hclaim := Directory.claim_of_absent (hfits.endsWith hout)
    (hfits.checkPath_destination hout hroot.nul hwet) hopens
  rw [hrouteOut] at hclaim
  exact hclaim hout.isPlain hfits.fileBaseSize (h.isClear hroot.opens.1) (h.at?_home_of_none hname)

theorem Mirrors.accept {above : Disk} (hwet : turn.creation.isDryRun = false)
    (hfills : disk.Fills above here (Catalogue.home (descend [] out.route) turn.name)) :
    ∃ after, (turn.blueprint.write turn.destination).runSilent above = (.ok turn.files, after) ∧
      Mirrors (catalogue.insert turn.name turn.blueprint) start after here
        (descend [] out.route) := by
  have hclear := h.isClear_home hroot.opens.1 turn.name
  have hopens : above.Opens (Disk.startOf root above.workingDirectory) root.route here := by
    rw [hfills.workingDirectory]
    exact (hfills.grows hclear).opens (h.opens_root hroot)
  have hhome := hfits.opens_home hout hopens (hfills.made _ List.suffix_rfl)
  obtain ⟨middle, after, hwrite, hheader, hsource⟩ :=
    hfits.write hout hroot.nul hwet hhome fun file _ => by
      rw [hfills.beyond file]
      exact h.at?_file
  exact ⟨after, hwrite, h.insert hroot.opens.1 hfills hheader hsource⟩

/-- **One turn.** Whatever the catalogue is, a turn answers as the catalogue says and leaves a disk
that shows the next one. -/
theorem Mirrors.take :
    (turn.take disk).1 = (catalogue.serve turn).1 ∧
      Mirrors (catalogue.serve turn).2 start (turn.take disk).2 here (descend [] out.route) := by
  cases hdry : turn.creation.isDryRun with
  | true =>
      rw [Turn.take, Creation.carryOut_of_isDryRun hdry, Catalogue.serve, if_pos hdry]
      exact ⟨rfl, h⟩
  | false =>
      have hwet : ¬ turn.creation.isDryRun = true := by simp [hdry]
      rw [Catalogue.serve, if_neg hwet]
      cases hname : catalogue turn.name with
      | none =>
          obtain ⟨above, hclaim, hfills⟩ := h.claim hroot hout hfits hdry hname
          obtain ⟨after, hwrite, hmirrors⟩ := h.accept hroot hout hfits hdry hfills
          change (turn.creation.blueprint.write turn.creation.destination).runSilent above = _
            at hwrite
          rw [Turn.take, Creation.carryOut_of_created hdry hclaim, hwrite]
          exact ⟨rfl, hmirrors⟩
      | some blueprint =>
          have hdir := h.at?_home_of_some hname
          have hfound : disk.isDirectory turn.creation.destination = true :=
            Disk.isDirectory_eq_true_iff.mpr ⟨hfits.checkPath_destination hout hroot.nul hdry, _,
              hfits.opens_home hout (h.opens_root hroot) hdir⟩
          cases hconsent : turn.consent with
          | true =>
              obtain ⟨after, hwrite, hmirrors⟩ :=
                h.accept hroot hout hfits hdry (.of_directory hdir)
              change (turn.creation.blueprint.write turn.creation.destination).runSilent disk = _
                at hwrite
              rw [Turn.take, hconsent, Creation.carryOut_of_consent hdry hfound rfl,
                hwrite]
              exact ⟨rfl, hmirrors⟩
          | false =>
              rw [Turn.take, hconsent, Creation.carryOut_of_refusal hdry hfound rfl]
              exact ⟨rfl, h⟩

end Turn

/-! ### Paths that are too long -/

theorem Creation.checkPath_of_written {σ ε : Type} {creation : Creation} {disk : Disk} {state : σ}
    {callback : Path → σ → Except ε Bool × σ} {created : Bool} {files : List Path}
    (hwet : creation.isDryRun = false)
    (h : (creation.carryOut callback disk state).value =
      .ok (creation.report (.written created files))) :
    Disk.checkPath (creation.blueprint.headerPath creation.destination) = .ok () := by
  obtain ⟨_, claimed, hwrite⟩ := carryOut_eq_written hwet h rfl
  obtain ⟨_, middle, hheader, _⟩ := Blueprint.write_eq_ok hwrite
  obtain ⟨above, _, hwritten⟩ := File.write_eq_ok hheader
  obtain ⟨_, _, _, hwalk⟩ := Disk.writeFile_eq_ok hwritten
  exact Disk.checkPath_of_walk hwalk

theorem Turn.checkPath_of_takeAll {turn : Turn} {disk : Disk}
    (hwet : turn.creation.isDryRun = false)
    (h : (Turn.takeAll [turn] disk).1 = (Catalogue.empty.serveAll [turn]).1) :
    Disk.checkPath (turn.blueprint.headerPath turn.destination) = .ok () := by
  have hserve : (Catalogue.empty.serve turn).1 =
      ⟨.ok (turn.creation.report (.written true turn.files)), []⟩ := by
    rw [Catalogue.serve, if_neg (by simp [hwet])]
    rfl
  have hreply : (turn.take disk).1 = (Catalogue.empty.serve turn).1 := (List.cons.inj h).1
  exact Creation.checkPath_of_written hwet (congrArg Reply.value (hreply.trans hserve))

theorem Turn.length_le_of_checkPath {turn : Turn}
    (hcheck : Disk.checkPath (turn.blueprint.headerPath turn.destination) = .ok ())
    (hout : turn.creation.config.outputDir.isAbsolute = false) :
    turn.creation.config.outputDir.text.toList.length ≤ Disk.maxPathSize := by
  have houtput : turn.creation.config.outputDir.text.toList.length ≤
      (turn.creation.root.join turn.creation.config.outputDir).text.toList.length := by
    rcases Path.toList_join_cases turn.creation.root hout with htext | ⟨_, htext⟩
    · rw [htext, List.length_append]
      omega
    · rw [htext, List.length_append, List.length_cons]
      omega
  have hdestination := (Path.isPrefix_join
    (turn.creation.root.join turn.creation.config.outputDir)
    (isAbsolute_file turn.name "")).length_le
  rw [String.append_empty] at hdestination
  have hheader := (Path.isPrefix_join turn.destination (isAbsolute_file turn.name ".h")).length_le
  have hsize := (Disk.checkPath_eq_ok_iff.mp hcheck).2.2
  have hlength := Path.length_le_utf8ByteSize
    (turn.blueprint.headerPath turn.destination).text.toList
  rw [String.ofList_toList] at hlength
  calc
    turn.creation.config.outputDir.text.toList.length ≤
        (turn.creation.root.join turn.creation.config.outputDir).text.toList.length := houtput
    _ ≤ turn.destination.text.toList.length := hdestination
    _ ≤ (turn.blueprint.headerPath turn.destination).text.toList.length := hheader
    _ ≤ (turn.blueprint.headerPath turn.destination).text.utf8ByteSize := hlength
    _ ≤ Disk.maxPathSize := hsize

/-! ### Whole sessions -/

theorem Mirrors.takeAll {root out : Path} {start disk : Disk} {here : Location}
    {catalogue : Catalogue} {turns : List Turn}
    (h : Mirrors catalogue start disk here (descend [] out.route))
    (hroot : start.IsEmptyRoot root here) (hout : out.IsOutputDir)
    (hfits : ∀ turn ∈ turns, turn.Fits root out) :
    (Turn.takeAll turns disk).1 = (catalogue.serveAll turns).1 ∧
      Mirrors (catalogue.serveAll turns).2 start (Turn.takeAll turns disk).2 here
        (descend [] out.route) := by
  induction turns generalizing catalogue disk with
  | nil => exact ⟨rfl, h⟩
  | cons turn rest ih =>
      obtain ⟨hreply, hnext⟩ := h.take hroot hout (hfits turn List.mem_cons_self)
      obtain ⟨hreplies, hlast⟩ := ih hnext fun other hother =>
        hfits other (List.mem_cons_of_mem _ hother)
      refine ⟨?_, hlast⟩
      rw [Turn.takeAll, Catalogue.serveAll]
      exact congrArg₂ List.cons hreply hreplies

/-- **Sessions keep a catalogue.** From an empty root, every session of turns that fit answers as
the catalogue serves it, and leaves a disk that shows the catalogue. A session can end after any
turn, so this is so at all times. -/
theorem takeAll_mirrors {root out : Path} {start : Disk} {here : Location} {turns : List Turn}
    (hroot : start.IsEmptyRoot root here) (hout : out.IsOutputDir)
    (hfits : ∀ turn ∈ turns, turn.Fits root out) :
    (Turn.takeAll turns start).1 = (Catalogue.empty.serveAll turns).1 ∧
      Mirrors (Catalogue.empty.serveAll turns).2 start (Turn.takeAll turns start).2 here
        (descend [] out.route) :=
  (Mirrors.empty hroot.empty).takeAll hroot hout hfits

/-- A preview, a new type, a refusal and a replacement. -/
theorem takeAll_mirrors_widget :
    let turn (isDryRun consent : Bool) : Turn :=
      { creation :=
          { request := ⟨"Widget", "Ada", "A widget.", { year := 2012, month := 1, day := 1 }⟩
            config := { Config.default with outputDir := ⟨"src"⟩ }
            root := ⟨"."⟩
            isDryRun := isDryRun }
        consent := consent }
    let turns := [turn true true, turn false true, turn false false, turn false true]
    (Turn.takeAll turns Disk.workspace).1 = (Catalogue.empty.serveAll turns).1 ∧
      Mirrors (Catalogue.empty.serveAll turns).2 Disk.workspace
        (Turn.takeAll turns Disk.workspace).2 ["workspace"] (descend [] (Path.mk "src").route) := by
  intro turn turns
  have hfits (isDryRun consent : Bool) : (turn isDryRun consent).Fits ⟨"."⟩ ⟨"src"⟩ := by
    cases isDryRun <;> cases consent <;>
      exact ⟨rfl, rfl, by decide, by decide, fun _ => by decide⟩
  have hout : (Path.ofSegments [['s', 'r', 'c']]).IsOutputDir :=
    Path.isOutputDir_ofSegments (by decide) (by decide)
  refine takeAll_mirrors isEmptyRoot_workspace hout ?_
  simp only [turns, List.forall_mem_cons]
  exact ⟨hfits _ _, hfits _ _, hfits _ _, hfits _ _, by simp⟩

/-- An output directory of plain names can be too deep: nothing is written there, though all names
are short. -/
theorem takeAll_ne_serveAll_of_deep_output :
    let out := Path.ofSegments (List.replicate 17 (List.replicate 245 'd'))
    let turn : Turn :=
      { creation :=
          { request := ⟨"Widget", "Ada", "A widget.", { year := 2012, month := 1, day := 1 }⟩
            config := { Config.default with outputDir := out }
            root := ⟨"."⟩
            isDryRun := false }
        consent := true }
    Disk.workspace.IsEmptyRoot ⟨"."⟩ ["workspace"] ∧ out.IsOutputDir ∧
      turn.creation.request.checkName = .ok () ∧
      (Symbols.derive turn.name).headerFile.utf8ByteSize ≤ Disk.maxNameSize ∧
      (Turn.takeAll [turn] Disk.workspace).1 ≠ (Catalogue.empty.serveAll [turn]).1 := by
  have hout : (Path.ofSegments (List.replicate 17 (List.replicate 245 'd'))).IsOutputDir := by
    apply Path.isOutputDir_ofSegments (by decide)
    intro segment hsegment
    rw [List.eq_of_mem_replicate hsegment]
    decide +kernel
  refine ⟨isEmptyRoot_workspace, hout, by decide, by decide, fun hsame => ?_⟩
  have hcheck := Turn.checkPath_of_takeAll rfl hsame
  have hlength := Turn.length_le_of_checkPath hcheck hout.relative
  have hdeep : (['/'].intercalate (List.replicate 17 (List.replicate 245 'd'))).length = 4181 := by
    decide +kernel
  rw [Path.toList_ofSegments, hdeep] at hlength
  exact absurd hlength (by decide)

end Scaffold
