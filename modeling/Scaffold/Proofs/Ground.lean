import Scaffold.Proofs.Claiming

/-!
# Building on plain ground

Below a directory without links, a path that only goes down leads to the location that its names
spell, and what a call does there is known exactly: directories are made from the top, files are put
where the last name says, and nothing else changes.
-/

namespace Scaffold

open Scaffold.Path (Step stems ofSegments stepOf?)

/-! ### Plain steps -/

namespace Path

inductive Step.IsPlain : Step → Prop where
  | stay : IsPlain .stay
  | into {name : String} (hsize : name.utf8ByteSize ≤ Disk.maxNameSize) : IsPlain (.into name)

def descend : Location → List Step → Location
  | here, [] => here
  | here, .into name :: rest => descend (name :: here) rest
  | here, _ :: rest => descend here rest

variable {here : Location} {steps first second : List Step}

theorem descend_append (here : Location) (first second : List Step) :
    descend here (first ++ second) = descend (descend here first) second := by
  induction first generalizing here with
  | nil => rfl
  | cons step rest ih => cases step <;> exact ih _

theorem descend_eq (here : Location) (steps : List Step) :
    descend here steps = descend [] steps ++ here := by
  induction steps generalizing here with
  | nil => rfl
  | cons step rest ih =>
      cases step with
      | into name =>
          rw [descend, descend, ih, ih [name], List.append_assoc]
          rfl
      | stay | up | slash => exact ih here

end Path

open Scaffold.Path (descend)

namespace Disk

variable {disk after : Disk} {path : Path} {start here location : Location}
  {first steps : List Step} {name : String} {aim : Aim} {entry : Entry}

theorem at?_of_append {rel : Location} (hne : rel ≠ []) (h : disk.at? (rel ++ here) ≠ none) :
    disk.at? here = some .directory := by
  induction rel with
  | nil => exact absurd rfl hne
  | cons name rest ih =>
      have hparent : disk.at? (rest ++ here) = some .directory := at?_parent h
      by_cases hrest : rest = []
      · rwa [hrest] at hparent
      · exact ih hrest (by rw [hparent]; simp)

theorem leads_descend (hplain : ∀ step ∈ steps, step.IsPlain)
    (hdir : disk.at? (descend here steps) = some .directory) :
    disk.Leads 0 here steps (descend here steps) := by
  induction steps generalizing here with
  | nil => exact .done
  | cons step rest ih =>
      have hrest : ∀ step ∈ rest, step.IsPlain := fun step hstep =>
        hplain step (List.mem_cons_of_mem _ hstep)
      have habove {middle : Location} (hmiddle : disk.at? (descend middle rest) = some .directory) :
          disk.at? middle = some .directory := by
        by_cases hnil : descend [] rest = []
        · rwa [Path.descend_eq, hnil] at hmiddle
        · exact at?_of_append hnil (by rw [← Path.descend_eq, hmiddle]; simp)
      cases hplain step List.mem_cons_self with
      | stay => exact .pass (habove hdir) .stay (ih hrest hdir)
      | @into name hsize =>
          have hname : disk.at? (name :: here) = some .directory := habove hdir
          have hhere : disk.at? here = some .directory := at?_parent (by rw [hname]; simp)
          exact .pass hhere (.into hsize (by simp [hname])) (ih hrest hdir)

theorem Opens.descend (hopens : disk.Opens start first here)
    (hplain : ∀ step ∈ steps, step.IsPlain)
    (hdir : disk.at? (Path.descend here steps) = some .directory) :
    disk.Opens start (first ++ steps) (Path.descend here steps) := by
  obtain ⟨_, links, hlinks, hleads⟩ := hopens
  exact ⟨hdir, links, hlinks, hleads.trans (leads_descend hplain hdir)⟩

theorem Opens.walk (hcheck : checkPath path = .ok ())
    (hopens : disk.Opens (startOf path disk.workingDirectory) first here)
    (hsteps : path.steps = first ++ steps) (hend : isEnd steps = false) (aim : Aim) :
    ∃ links, disk.walk aim path = walkLinks disk aim links here steps := by
  obtain ⟨_, used, hused, hleads⟩ := hopens
  obtain ⟨spare, hspare⟩ := Nat.exists_eq_add_of_le hused
  refine ⟨spare, ?_⟩
  rw [walk_of_checkPath hcheck, hsteps, hspare, hleads.walkLinks_append hend]

theorem Opens.walk_into (hcheck : checkPath path = .ok ())
    (hopens : disk.Opens (startOf path disk.workingDirectory) first here)
    (hsteps : path.steps = first ++ [.into name]) (hsize : name.utf8ByteSize ≤ maxNameSize)
    (hnotLink : ∀ target, disk.at? (name :: here) ≠ some (.link target)) (aim : Aim) :
    disk.walk aim path = .ok ⟨name :: here, false⟩ := by
  obtain ⟨links, hwalk⟩ := hopens.walk hcheck hsteps rfl aim
  rw [hwalk, walkLinks_pass hopens.1 (.into hsize hnotLink) (by simp) (by simp), walkLinks_nil]

def IsClear (disk : Disk) (here rel : Location) : Prop :=
  ∀ part, part <:+ rel →
    disk.at? (part ++ here) = none ∨ disk.at? (part ++ here) = some .directory

theorem IsClear.of_suffix {rel part : Location} (h : disk.IsClear here rel) (hpart : part <:+ rel) :
    disk.IsClear here part :=
  fun deeper hdeeper => h deeper (hdeeper.trans hpart)

theorem IsClear.of_into (h : disk.IsClear here (descend [] (.into name :: steps))) :
    disk.IsClear (name :: here) (descend [] steps) := by
  intro part hpart
  have hbelow : part ++ [name] <:+ descend [] (.into name :: steps) := by
    obtain ⟨rest, hrest⟩ := hpart
    refine ⟨rest, ?_⟩
    rw [descend, Path.descend_eq, ← hrest, List.append_assoc]
  simpa using h _ hbelow

theorem isEnd_concat_into (steps : List Step) (name : String) :
    isEnd (steps ++ [.into name]) = false := by
  rcases steps with _ | ⟨_ | _ | _ | _, _ | _⟩ <;> rfl

theorem walkLinks_of_absent {links : Nat} (hhere : disk.at? here = some .directory)
    (hplain : ∀ step ∈ steps, step.IsPlain) (hclear : disk.IsClear here (descend [] steps))
    (habsent : disk.at? (descend here steps) = none) :
    walkLinks disk aim links here (steps ++ [.into name]) = .error .notFound := by
  induction steps generalizing here with
  | nil => exact absurd (hhere.symm.trans habsent) (by simp)
  | cons step rest ih =>
      have hrest : ∀ step ∈ rest, step.IsPlain := fun step hstep =>
        hplain step (List.mem_cons_of_mem _ hstep)
      rw [List.cons_append]
      cases hplain step List.mem_cons_self with
      | stay =>
          rw [walkLinks_pass hhere .stay (by simp) (by simp)]
          exact ih hhere hrest hclear habsent
      | @into next hsize =>
          have hnext := hclear [next] ⟨descend [] rest, by rw [descend, Path.descend_eq [next]]⟩
          rw [List.singleton_append] at hnext
          have hpass : disk.Passes here (.into next) (next :: here) :=
            .into hsize fun target hlink => by rcases hnext with h | h <;> simp [h] at hlink
          rw [walkLinks_pass hhere hpass (by simp) (by cases rest <;> simp)]
          rcases hnext with hnone | hdir
          · have hcheck : disk.checkDirectory (next :: here) = .error .notFound := by
              rw [checkDirectory, hnone]
            exact walkLinks_of_checkDirectory hcheck (isEnd_concat_into rest name)
          · exact ih hdir hrest hclear.of_into habsent

/-! ### Calls on plain ground -/

section Calls

variable (hcheck : checkPath path = .ok ())
  (hopens : disk.Opens (startOf path disk.workingDirectory) first here)

include hcheck hopens

theorem makeDirectory_of_opens (hsteps : path.steps = first ++ [.into name])
    (hsize : name.utf8ByteSize ≤ maxNameSize) (habsent : disk.at? (name :: here) = none) :
    ∃ after, disk.makeDirectory path = .ok after ∧ disk.Adds after (name :: here) := by
  have hwalk := hopens.walk_into hcheck hsteps hsize (by simp [habsent]) .entry
  have hadmits : disk.Admits name here := ⟨hopens.1, by simp [habsent]⟩
  have hplace : disk.place (name :: here) .directory =
      .ok (disk.set name here .directory hadmits) := by
    rw [place, dif_pos hadmits]
  refine ⟨_, ?_, adds_of_place hplace habsent⟩
  rw [makeDirectory, hwalk, ← hplace]
  exact if_neg (by simp [habsent])

theorem makeDirectory_of_absent (hsteps : path.steps = first ++ (steps ++ [.into name]))
    (hplain : ∀ step ∈ steps, step.IsPlain) (hclear : disk.IsClear here (descend [] steps))
    (habsent : disk.at? (descend here steps) = none) :
    disk.makeDirectory path = .error .notFound := by
  obtain ⟨links, hwalk⟩ := hopens.walk hcheck hsteps (isEnd_concat_into steps name) .entry
  rw [makeDirectory, hwalk, walkLinks_of_absent hopens.1 hplain hclear habsent]
  rfl

theorem writeFile_of_opens (content : ByteArray) (hsteps : path.steps = first ++ [.into name])
    (hsize : name.utf8ByteSize ≤ maxNameSize)
    (hfile : disk.at? (name :: here) = none ∨ ∃ old, disk.at? (name :: here) = some (.file old)) :
    ∃ after, disk.writeFile path content = .ok after ∧
      disk.Puts after (name :: here) (.file content) := by
  have hnotLink (target : Path) : disk.at? (name :: here) ≠ some (.link target) := by
    rcases hfile with h | ⟨old, h⟩ <;> simp [h]
  have hwalk := hopens.walk_into hcheck hsteps hsize hnotLink .file
  have hadmits : disk.Admits name here := by
    refine ⟨hopens.1, ?_⟩
    rcases hfile with h | ⟨old, h⟩ <;> simp [h]
  refine ⟨disk.set name here (.file content) hadmits, ?_, rfl, at?_set hadmits⟩
  rw [writeFile, hwalk]
  exact dif_pos hadmits

end Calls

/-! ### Ways that are filled in -/

structure Fills (disk after : Disk) (here rel : Location) : Prop where
  workingDirectory : after.workingDirectory = disk.workingDirectory
  made : ∀ part, part <:+ rel → after.at? (part ++ here) = some .directory
  kept : ∀ other, (∀ part, part <:+ rel → other ≠ part ++ here) → after.at? other = disk.at? other

namespace Fills

variable {above : Disk} {rel : Location}

theorem of_directory (hdir : disk.at? (rel ++ here) = some .directory) :
    disk.Fills disk here rel := by
  refine ⟨rfl, ?_, fun _ _ => rfl⟩
  rintro part ⟨front, rfl⟩
  rw [List.append_assoc] at hdir
  by_cases hfront : front = []
  · rwa [hfront] at hdir
  · exact at?_of_append hfront (by rw [hdir]; simp)

theorem grows (h : disk.Fills after here rel) (hclear : disk.IsClear here rel) :
    disk.Grows after := by
  have hcases (other : Location) : after.at? other = disk.at? other ∨
      after.at? other = some .directory ∧ ∀ path, disk.at? other ≠ some (.link path) := by
    by_cases hway : ∃ part, part <:+ rel ∧ other = part ++ here
    · obtain ⟨part, hpart, rfl⟩ := hway
      refine Or.inr ⟨h.made part hpart, fun path hlink => ?_⟩
      rcases hclear part hpart with hnone | hdir
      · simp [hnone] at hlink
      · simp [hdir] at hlink
    · exact Or.inl (h.kept other fun part hpart heq => hway ⟨part, hpart, heq⟩)
  refine ⟨h.workingDirectory, fun {other} hother => ?_, fun {other path} => ?_⟩
  · rcases hcases other with hsame | ⟨hdir, _⟩
    · rw [hsame, hother]
    · exact hdir
  · rcases hcases other with hsame | ⟨hdir, hnotLink⟩
    · rw [hsame]
    · simp [hdir, hnotLink path]

theorem concat (h : disk.Fills above here rel) (hadds : above.Adds after (name :: (rel ++ here))) :
    disk.Fills after here (name :: rel) where
  workingDirectory := hadds.workingDirectory.trans h.workingDirectory
  made := by
    intro part hpart
    rcases List.suffix_cons_iff.mp hpart with rfl | hpart
    · exact hadds.present
    · exact hadds.grows.directory (h.made part hpart)
  kept := by
    intro other hother
    have hne : other ≠ name :: (rel ++ here) := hother _ List.suffix_rfl
    rw [hadds.at?, if_neg hne]
    exact h.kept other fun part hpart => hother part (hpart.trans (List.suffix_cons name rel))

theorem beyond (h : disk.Fills above here rel) (name : String) :
    above.at? (name :: (rel ++ here)) = disk.at? (name :: (rel ++ here)) := by
  apply h.kept
  intro part hpart heq
  have hlength := congrArg List.length heq
  have hle := hpart.length_le
  simp only [List.length_cons, List.length_append] at hlength
  omega

end Fills

end Disk

namespace Directory

variable {disk after : Disk} {path : Path} {start here : Location} {base segs : List (List Char)}

theorem make_of_ok (h : disk.makeDirectory path = .ok after) :
    (make path).runSilent disk = (.ok .created, after) := by
  have hperform : (Call.makeDirectory path).perform disk =
      Call.changed disk (disk.makeDirectory path) := rfl
  rw [make, Script.runSilent_bind, Script.runSilent_perform, hperform, h]
  rfl

theorem make_of_error {fault : Fault} (h : disk.makeDirectory path = .error fault)
    (hfault : fault ≠ .alreadyExists) : (make path).runSilent disk = (.error fault, disk) := by
  have hperform : (Call.makeDirectory path).perform disk =
      Call.changed disk (disk.makeDirectory path) := rfl
  rw [make, Script.runSilent_bind, Script.runSilent_perform, hperform, h]
  cases fault with
  | alreadyExists => exact absurd rfl hfault
  | _ => rfl

section Make

variable {first steps : List Step} {name : String} (hcheck : Disk.checkPath path = .ok ())
  (hopens : disk.Opens (Disk.startOf path disk.workingDirectory) first here)
  (hsteps : path.steps = first ++ (steps ++ [.into name]))
  (hplain : ∀ step ∈ steps, step.IsPlain)

include hcheck hopens hsteps hplain

theorem make_of_absent (hsize : name.utf8ByteSize ≤ Disk.maxNameSize)
    (hparent : disk.at? (descend [] steps ++ here) = some .directory)
    (habsent : disk.at? (name :: (descend [] steps ++ here)) = none) :
    ∃ after, (make path).runSilent disk = (.ok .created, after) ∧
      disk.Adds after (name :: (descend [] steps ++ here)) := by
  rw [← Path.descend_eq] at hparent habsent ⊢
  rw [← List.append_assoc] at hsteps
  have hway := hopens.descend hplain hparent
  obtain ⟨after, hmake, hadds⟩ := Disk.makeDirectory_of_opens hcheck hway hsteps hsize habsent
  exact ⟨after, make_of_ok hmake, hadds⟩

/-- What comes of making a directory on plain ground depends on what is there of the way to it. -/
theorem make_cases_of_isClear (hsize : name.utf8ByteSize ≤ Disk.maxNameSize)
    (hroute : path.route = path.steps)
    (hclear : disk.IsClear here (name :: descend [] steps)) :
    (disk.at? (name :: (descend [] steps ++ here)) = some .directory ∧
        (make path).runSilent disk = (.ok .existing, disk)) ∨
      disk.at? (name :: (descend [] steps ++ here)) = none ∧
        ((disk.at? (descend [] steps ++ here) = some .directory ∧
            ∃ after, (make path).runSilent disk = (.ok .created, after) ∧
              disk.Adds after (name :: (descend [] steps ++ here))) ∨
          (make path).runSilent disk = (.error .notFound, disk)) := by
  rcases hclear _ List.suffix_rfl with habsent | hdir
  · refine Or.inr ⟨habsent, ?_⟩
    rcases hclear _ (List.suffix_cons name _) with hnone | hparent
    · have hdeep := hclear.of_suffix (List.suffix_cons name _)
      rw [← Path.descend_eq] at hnone
      exact Or.inr (make_of_error
        (Disk.makeDirectory_of_absent hcheck hopens hsteps hplain hdeep hnone) (by simp))
    · exact Or.inl ⟨hparent, make_of_absent hcheck hopens hsteps hplain hsize hparent habsent⟩
  · refine Or.inl ⟨hdir, make_of_isDirectory (Disk.isDirectory_eq_true_iff.mpr ⟨hcheck, ?_⟩)⟩
    have hplain' : ∀ step ∈ steps ++ [.into name], step.IsPlain := by
      intro step hstep
      rcases List.mem_append.mp hstep with hstep | hstep
      · exact hplain step hstep
      · rw [List.mem_singleton.mp hstep]
        exact .into hsize
    have hend : descend here (steps ++ [.into name]) = name :: (descend [] steps ++ here) := by
      rw [Path.descend_append, Path.descend_eq here steps]
      rfl
    have hway := hopens.descend hplain' (by rw [hend]; exact hdir)
    rw [hroute, hsteps]
    exact ⟨_, hway⟩

theorem makeChain_cons_fills {ancestors : List Path} (hsize : name.utf8ByteSize ≤ Disk.maxNameSize)
    (hroute : path.route = path.steps) (hclear : disk.IsClear here (name :: descend [] steps))
    (hancestors : ∃ above, (makeChain ancestors).runSilent disk = (.ok (), above) ∧
      disk.Fills above here (descend [] steps)) :
    ∃ after, (makeChain (path :: ancestors)).runSilent disk = (.ok (), after) ∧
      disk.Fills after here (name :: descend [] steps) := by
  rcases make_cases_of_isClear hcheck hopens hsteps hplain hsize hroute hclear with
    ⟨hdir, hmake⟩ | ⟨habsent, ⟨hparent, after, hmake, hadds⟩ | hmake⟩
  · exact ⟨disk, makeChain_of_make_ok hmake, .of_directory hdir⟩
  · exact ⟨after, makeChain_of_make_ok hmake, (Disk.Fills.of_directory hparent).concat hadds⟩
  · obtain ⟨above, habove, hfills⟩ := hancestors
    have hgrows := hfills.grows (hclear.of_suffix (List.suffix_cons name _))
    have hopens' : above.Opens (Disk.startOf path above.workingDirectory) first here := by
      rw [hfills.workingDirectory]
      exact hgrows.opens hopens
    obtain ⟨after, hagain, hadds⟩ := make_of_absent hcheck hopens' hsteps hplain hsize
      (hfills.made _ List.suffix_rfl) ((hfills.beyond name).trans habsent)
    refine ⟨after, ?_, hfills.concat hadds⟩
    rw [makeChain_of_ancestors_ok hmake habove, hagain]
    rfl

end Make

/-- **Ancestors on plain ground.** Below a directory that is there, all ancestors are made that are
missing, and nothing else happens. -/
theorem makeChain_fills
    (hstems : ∀ stem ∈ stems (base ++ segs), Disk.checkPath stem = .ok () ∧
      Disk.startOf stem disk.workingDirectory = start)
    (hslash : ∀ piece ∈ base ++ segs, '/' ∉ piece)
    (hbase : disk.Opens start (base.filterMap stepOf?) here)
    (hplain : ∀ step ∈ segs.filterMap stepOf?, step.IsPlain)
    (hclear : disk.IsClear here (descend [] (segs.filterMap stepOf?))) :
    ∃ after, (makeChain (stems (base ++ segs))).runSilent disk = (.ok (), after) ∧
      disk.Fills after here (descend [] (segs.filterMap stepOf?)) := by
  induction segs using List.reverseRecOn with
  | nil =>
      rw [List.append_nil] at hstems hslash ⊢
      exact ⟨disk, makeChain_of_opens hstems hslash hbase, .of_directory hbase.1⟩
  | append_singleton segs segment ih =>
      rw [← List.append_assoc] at hstems hslash ⊢
      rw [List.filterMap_append] at hplain hclear ⊢
      have hslashBefore : ∀ piece ∈ base ++ segs, '/' ∉ piece := fun piece hpiece =>
        hslash piece (List.mem_append_left _ hpiece)
      have hplainBefore : ∀ step ∈ segs.filterMap stepOf?, step.IsPlain := fun step hstep =>
        hplain step (List.mem_append_left _ hstep)
      rcases Path.stems_concat_cases (base ++ segs) segment with
        ⟨hconcat, hstep⟩ | ⟨hnil, rfl⟩ | ⟨component, hroot, h, hconcat⟩
      · rw [hconcat] at hstems ⊢
        have hsame : descend [] (segs.filterMap stepOf? ++ [segment].filterMap stepOf?) =
            descend [] (segs.filterMap stepOf?) := by
          rw [Path.descend_append]
          rcases hstep with hstep | hstep <;> simp [hstep, descend]
        rw [hsame] at hclear ⊢
        exact ih hstems hslashBefore hplainBefore hclear
      · obtain ⟨rfl, rfl⟩ := List.append_eq_nil_iff.mp hnil
        exact ⟨disk, by rw [List.nil_append, List.nil_append, Path.stems_root]; rfl,
          .of_directory hbase.1⟩
      rw [hconcat] at hstems ⊢
      obtain ⟨hcheck, hstart⟩ := hstems _ List.mem_cons_self
      have hstemsBefore : ∀ stem ∈ stems (base ++ segs), Disk.checkPath stem = .ok () ∧
          Disk.startOf stem disk.workingDirectory = start := fun stem hstem =>
        hstems stem (List.mem_cons_of_mem _ hstem)
      rcases Path.componentOf?_cases hroot h with ⟨hnil, rfl⟩ | rfl | hstep
      · -- A leading dot is the directory that all starts from.
        obtain ⟨rfl, rfl⟩ := List.append_eq_nil_iff.mp hnil
        have hdir : disk.isDirectory (ofSegments ([] ++ [] ++ [['.']])) = true :=
          Disk.isDirectory_eq_true_iff.mpr ⟨hcheck, here, by rw [hstart]; exact hbase.stay⟩
        exact ⟨disk, makeChain_of_make_ok (make_of_isDirectory hdir), .of_directory hbase.1⟩
      · cases hplain .up (by simp [stepOf?])
      · have hroute : (ofSegments (base ++ segs ++ [segment])).route =
            (ofSegments (base ++ segs ++ [segment])).steps :=
          (Path.steps_eq_route (Path.endsWithSlash_ofSegments_concat
            (Path.segment_ne_nil hroot h) (hslash segment (by simp)))).symm
        have hsteps : (ofSegments (base ++ segs ++ [segment])).steps =
            base.filterMap stepOf? ++
              (segs.filterMap stepOf? ++ [.into (String.ofList segment)]) := by
          rw [← hroute, Path.route, Path.segments_ofSegments (by simp) hslash]
          simp [hstep]
        have hsize : (String.ofList segment).utf8ByteSize ≤ Disk.maxNameSize := by
          cases hplain (.into (String.ofList segment)) (by simp [hstep]) with
          | into hsize => exact hsize
        have hend : descend [] (segs.filterMap stepOf? ++ [segment].filterMap stepOf?) =
            String.ofList segment :: descend [] (segs.filterMap stepOf?) := by
          rw [Path.descend_append, List.filterMap_cons, hstep]
          rfl
        rw [hend] at hclear ⊢
        exact makeChain_cons_fills hcheck (by rw [hstart]; exact hbase) hsteps hplainBefore hsize
          hroute hclear (ih hstemsBefore hslashBefore hplainBefore
            (hclear.of_suffix (List.suffix_cons _ _)))

section Claim

variable {name : String} (hends : path.EndsWith (base ++ segs) name)
  (hcheck : Disk.checkPath path = .ok ())
  (hopens : disk.Opens (Disk.startOf path disk.workingDirectory) (base.filterMap stepOf?) here)

include hends hcheck hopens

theorem claim_of_absent (hplain : ∀ step ∈ segs.filterMap stepOf?, step.IsPlain)
    (hsize : name.utf8ByteSize ≤ Disk.maxNameSize)
    (hclear : disk.IsClear here (descend [] (segs.filterMap stepOf?)))
    (habsent : disk.at? (name :: (descend [] (segs.filterMap stepOf?) ++ here)) = none) :
    ∃ after, (claim path).runSilent disk = (.ok .created, after) ∧
      disk.Fills after here (name :: descend [] (segs.filterMap stepOf?)) := by
  have hsteps : path.steps =
      base.filterMap stepOf? ++ (segs.filterMap stepOf? ++ [.into name]) := by
    rw [hends.steps, hends.route, List.filterMap_append, List.append_assoc]
  have hstems := checkPath_ancestors hcheck disk.workingDirectory
  rw [hends.closes.ancestors] at hstems
  obtain ⟨above, hchain, hfills⟩ := makeChain_fills hstems
    (fun piece hpiece => hends.slash_notMem piece (List.mem_append_left _ hpiece))
    hopens hplain hclear
  have hopens' : above.Opens (Disk.startOf path above.workingDirectory)
      (base.filterMap stepOf?) here := by
    rw [hfills.workingDirectory]
    exact (hfills.grows hclear).opens hopens
  obtain ⟨after, hmake, hadds⟩ := make_of_absent hcheck hopens' hsteps hplain hsize
    (hfills.made _ List.suffix_rfl) ((hfills.beyond name).trans habsent)
  refine ⟨after, ?_, hfills.concat hadds⟩
  rw [← hends.closes.ancestors] at hchain
  rw [claim_of_makeChain_ok hchain, hmake]
  rfl

end Claim

end Directory

/-! ### Files on plain ground -/

section Files

variable {disk : Disk} {here : Location} {path : Path} {before : List (List Char)} {name : String}

theorem File.write_of_opens (content : ByteArray) (hends : path.EndsWith before name)
    (hcheck : Disk.checkPath path = .ok ())
    (hopens : disk.Opens (Disk.startOf path disk.workingDirectory) (before.filterMap stepOf?) here)
    (hsize : name.utf8ByteSize ≤ Disk.maxNameSize)
    (hfile : disk.at? (name :: here) = none ∨ ∃ old, disk.at? (name :: here) = some (.file old)) :
    ∃ after, (File.write path content).runSilent disk = (.ok (), after) ∧
      disk.Puts after (name :: here) (.file content) := by
  obtain ⟨after, hwrite, hputs⟩ := Disk.writeFile_of_opens hcheck hopens content
    (hends.steps.trans hends.route) hsize hfile
  exact ⟨after, File.write_of_writeFile hends hwrite, hputs⟩

end Files

end Scaffold
