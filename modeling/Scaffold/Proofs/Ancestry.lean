import Scaffold.Proofs.Route

/-!
# Ancestors

Whatever a path looks like, the directories that are made before it are the stems before its last
component. Each of them is a prefix of the path, and what is left of the route after it does not
only stay where it is.
-/

namespace Scaffold.Path

variable {path stem : Path} {before behind segs : List (List Char)} {segment : List Char}

/-! ### Prefixes -/

structure IsPrefixOf (stem path : Path) : Prop where
  text : stem.text.toList <+: path.text.toList
  components : stem.components <+: path.components

namespace IsPrefixOf

theorem refl (path : Path) : path.IsPrefixOf path := ⟨List.prefix_rfl, List.prefix_rfl⟩

theorem trans {middle : Path} (hfirst : stem.IsPrefixOf middle) (hsecond : middle.IsPrefixOf path) :
    stem.IsPrefixOf path :=
  ⟨hfirst.text.trans hsecond.text, hfirst.components.trans hsecond.components⟩

end IsPrefixOf

theorem components_of_isEmpty (hempty : path.isEmpty = false) :
    path.components = (partsAfter [] path.segments).map Prod.fst := by
  rw [components, parts, hempty]
  rfl

theorem joint_ne_nil (hempty : path.isEmpty = false) : path.joint ≠ [] := by
  unfold joint
  split
  · next hlast =>
    obtain ⟨init, hinit⟩ := List.getLast?_eq_some_iff.mp hlast
    rw [hinit, List.dropLast_concat]
    rintro rfl
    have hpath := ofSegments_segments path
    rw [hinit] at hpath
    rw [← hpath] at hempty
    cases hempty
  · exact path.segments_ne_nil

theorem partsAfter_joint (hempty : path.isEmpty = false) :
    partsAfter [] path.joint = partsAfter [] path.segments := by
  have hne := joint_ne_nil hempty
  unfold joint at hne ⊢
  split at hne
  · next hlast =>
    obtain ⟨init, hinit⟩ := List.getLast?_eq_some_iff.mp hlast
    rw [hinit, List.dropLast_concat] at hne
    have hnone : componentOf? init.isEmpty [] = none := by
      rw [List.isEmpty_eq_false_iff.mpr hne]
      rfl
    rw [if_pos hlast, hinit, List.dropLast_concat, partsAfter_concat_none hnone]
  · next hlast => rw [if_neg hlast]

theorem components_eq_joint (path : Path) :
    path.components = (partsAfter [] path.joint).map Prod.fst := by
  cases hempty : path.isEmpty with
  | false => rw [components_of_isEmpty hempty, partsAfter_joint hempty]
  | true =>
      have hnil : path.text.toList = [] := List.isEmpty_iff.mp hempty
      simp [components, parts, hempty, joint, segments, hnil, partsAfter]

theorem EndsWith.components {base : Path} {name : String}
    (h : (base.join ⟨name⟩).EndsWith base.joint name) :
    (base.join ⟨name⟩).components = base.components ++ [.name name.toList] := by
  rw [components_of_isEmpty h.isEmpty, h.segments, partsAfter_concat (by simp) h.component,
    List.map_append, ← components_eq_joint]
  rfl

theorem components_join {base part : Path} (hbase : base.isEmpty = false)
    (hrelative : part.isAbsolute = false) :
    (base.join part).components =
      base.components ++ (partsAfter base.joint part.segments).map Prod.fst := by
  have hjoin : (base.join part).isEmpty = false := by
    simp only [isEmpty, List.isEmpty_eq_false_iff] at hbase ⊢
    intro hnil
    have htext := isPrefix_join base hrelative
    rw [hnil] at htext
    exact hbase (List.prefix_nil.mp htext)
  rw [components_of_isEmpty hjoin, segments_join hrelative, partsAfter_append, List.map_append,
    ← components_eq_joint, List.nil_append]

theorem isPrefixOf_join (base : Path) {part : Path} (hrelative : part.isAbsolute = false) :
    base.IsPrefixOf (base.join part) := by
  refine ⟨isPrefix_join base hrelative, ?_⟩
  cases hempty : base.isEmpty with
  | true =>
      rw [components, parts, if_pos hempty]
      exact List.nil_prefix
  | false =>
      rw [components_join hempty hrelative]
      exact List.prefix_append _ _

theorem join_injective {base left right : Path} (hleft : left.isAbsolute = false)
    (hright : right.isAbsolute = false) (h : base.join left = base.join right) : left = right := by
  have hjoin {part : Path} (hpart : part.isAbsolute = false) : base.join part =
      if base.isEmpty || base.endsWithSlash then ⟨base.text ++ part.text⟩
      else ⟨base.text ++ "/" ++ part.text⟩ := if_neg (by simp [hpart])
  rw [hjoin hleft, hjoin hright] at h
  cases left
  cases right
  by_cases hbase : (base.isEmpty || base.endsWithSlash) = true
  · simpa only [if_pos hbase, mk.injEq, String.append_right_inj] using h
  · simpa only [if_neg hbase, mk.injEq, String.append_right_inj] using h

theorem isAbsolute_of_isEmpty (hempty : path.isEmpty = false) :
    path.isAbsolute = decide (path.segments.head? = some []) := by
  obtain ⟨c, rest, htext⟩ : ∃ c rest, path.text.toList = c :: rest :=
    List.exists_cons_of_ne_nil (by simpa [isEmpty] using hempty)
  obtain ⟨piece, pieces, hrest⟩ := List.exists_cons_of_ne_nil (List.splitOn_ne_nil '/' rest)
  rw [isAbsolute, segments, htext, List.splitOn_cons_eq_if_modifyHead]
  by_cases hslash : c = '/'
  · simp [hslash]
  · simp [hslash, hrest]

theorem slash_notMem_route (path : Path) : .slash ∉ path.route := by
  intro h
  rcases mem_route_cases h with h | ⟨h, _⟩ | ⟨_, h, _⟩ <;> cases h

theorem up_notMem_route (hup : .up ∉ path.components) : .up ∉ path.route := by
  intro h
  rcases mem_route_cases h with h | ⟨_, h⟩ | ⟨_, h, _⟩
  · cases h
  · exact hup h
  · cases h

/-! ### The last component -/

theorem eq_of_componentOf?_none {isFirst : Bool} (h : componentOf? isFirst segment = none) :
    segment = [] ∨ segment = ['.'] := by
  unfold componentOf? at h
  split at h
  · next hnil => exact Or.inl hnil
  · split at h
    · next hdot => exact Or.inr hdot
    · split at h <;> cases h

def AreBlank (segs : List (List Char)) : Prop :=
  ∀ piece ∈ segs, piece = [] ∨ piece = ['.']

theorem AreBlank.partsAfter (hblank : AreBlank segs) (hbefore : before ≠ []) :
    partsAfter before segs = [] := by
  induction segs generalizing before with
  | nil => rfl
  | cons piece rest ih =>
      have hpiece : componentOf? before.isEmpty piece = none := by
        rw [List.isEmpty_eq_false_iff.mpr hbefore]
        rcases hblank piece List.mem_cons_self with rfl | rfl <;> rfl
      rw [Path.partsAfter, hpiece]
      exact ih (fun other hother => hblank other (List.mem_cons_of_mem _ hother)) (by simp)

structure Closes (path : Path) (before : List (List Char)) (segment : List Char) : Prop where
  component : ∃ component, component ≠ .root ∧
    componentOf? before.isEmpty segment = some component
  segments : ∃ behind, path.segments = before ++ [segment] ++ behind ∧ AreBlank behind

theorem exists_last_component (segs : List (List Char)) :
    (∃ before segment behind component, component ≠ Component.root ∧
        componentOf? before.isEmpty segment = some component ∧
        segs = before ++ [segment] ++ behind ∧ AreBlank behind) ∨
      segs = [] ∨ ∃ rest, segs = [] :: rest ∧ AreBlank rest := by
  -- From the end, since only what comes before a segment says what component it is.
  induction segs using List.reverseRecOn with
  | nil => exact Or.inr (Or.inl rfl)
  | append_singleton init last ih =>
      cases h : componentOf? init.isEmpty last with
      | none =>
          have hlast := eq_of_componentOf?_none h
          have hblank {segs : List (List Char)} (hsegs : AreBlank segs) :
              AreBlank (segs ++ [last]) := by
            intro piece hpiece
            rcases List.mem_append.mp hpiece with hpiece | hpiece
            · exact hsegs piece hpiece
            · exact List.mem_singleton.mp hpiece ▸ hlast
          rcases ih with ⟨before, segment, behind, component, hroot, hcomponent, rfl, hbehind⟩ |
            rfl | ⟨rest, rfl, hrest⟩
          · exact Or.inl ⟨before, segment, behind ++ [last], component, hroot, hcomponent,
              by simp, hblank hbehind⟩
          · rcases hlast with rfl | rfl <;> cases h
          · exact Or.inr (Or.inr ⟨rest ++ [last], rfl, hblank hrest⟩)
      | some component =>
          by_cases hroot : component = .root
          · rw [hroot] at h
            obtain ⟨rfl, rfl⟩ := eq_nil_of_componentOf?_root h
            exact Or.inr (Or.inr ⟨[], rfl, by simp [AreBlank]⟩)
          · exact Or.inl ⟨init, last, [], component, hroot, h, by simp, by simp [AreBlank]⟩

/-- The directories that are made before a path, the longest first. -/
def ancestors (path : Path) : List Path :=
  (path.parent?.map chain).getD []

namespace Closes

theorem slash_notMem (h : path.Closes before segment) :
    ∀ piece ∈ before ++ [segment], '/' ∉ piece := by
  obtain ⟨behind, hsegments, _⟩ := h.segments
  intro piece hpiece
  have hmem : piece ∈ path.segments := by
    rw [hsegments]
    exact List.mem_append_left _ hpiece
  exact Path.slash_notMem hmem

theorem isEmpty (h : path.Closes before segment) : path.isEmpty = false := by
  obtain ⟨component, hroot, hcomponent⟩ := h.component
  obtain ⟨behind, hsegments, _⟩ := h.segments
  rw [← Bool.not_eq_true]
  intro hempty
  have hmem : segment ∈ path.segments := by simp [hsegments]
  rw [Path.segments, List.isEmpty_iff.mp hempty] at hmem
  exact segment_ne_nil hroot hcomponent (by simpa using hmem)

/-- What is made before a path is made of the stems that the path has besides its last one. -/
theorem ancestors (h : path.Closes before segment) : path.ancestors = stems before := by
  obtain ⟨component, hroot, hcomponent⟩ := h.component
  obtain ⟨behind, hsegments, hblank⟩ := h.segments
  have hparts : path.parts = partsAfter [] before ++
      [(component, ofSegments (before ++ [segment]))] := by
    rw [parts, h.isEmpty, hsegments, partsAfter_append, List.nil_append,
      hblank.partsAfter (by simp), List.append_nil, partsAfter_concat hroot hcomponent]
    rfl
  have hslash : ∀ piece ∈ before, '/' ∉ piece := fun piece hpiece =>
    h.slash_notMem piece (List.mem_append_left _ hpiece)
  rcases exists_last_part hslash with ⟨hnil, hstems⟩ | ⟨rest, last, stem, hlast, hchain⟩
  · have hparent : path.parent? = some ⟨""⟩ := by
      cases component with
      | root => exact absurd rfl hroot
      | here | up | name => simp [parent?, hparts, hnil]
    rw [Path.ancestors, hparent, hstems]
    decide
  · have hparent : path.parent? = some stem := by
      cases component with
      | root => exact absurd rfl hroot
      | here | up | name => simp [parent?, hparts, hlast]
    rw [Path.ancestors, hparent]
    exact hchain

end Closes

theorem closes_or_ancestors_eq_nil (path : Path) :
    (∃ before segment, path.Closes before segment) ∨ path.ancestors = [] := by
  rcases exists_last_component path.segments with
    ⟨before, segment, behind, component, hroot, hcomponent, hsegments, hblank⟩ | hnil |
    ⟨rest, hsegments, hblank⟩
  · exact Or.inl ⟨before, segment, ⟨component, hroot, hcomponent⟩, behind, hsegments, hblank⟩
  · exact absurd hnil path.segments_ne_nil
  · refine Or.inr ?_
    have hparts : path.parts = [] ∨ path.parts = [(.root, ⟨"/"⟩)] := by
      rw [parts, hsegments]
      split
      · exact Or.inl rfl
      · refine Or.inr ?_
        have hrest : partsAfter [[]] rest = [] := hblank.partsAfter (by simp)
        simp [partsAfter, componentOf?, hrest]
    rcases hparts with hparts | hparts <;> simp [Path.ancestors, parent?, hparts]

/-! ### What an ancestor is -/

structure IsAncestorOf (stem path : Path) : Prop where
  isEmpty : stem.isEmpty = false
  isPrefix : stem.IsPrefixOf path
  isAbsolute : stem.isAbsolute = path.isAbsolute
  length_lt : stem.segments.length < path.segments.length
  route : ∃ rest, path.route = stem.route ++ rest ∧ ∃ step ∈ rest, step ≠ .stay

namespace IsAncestorOf

theorem ne (h : stem.IsAncestorOf path) : stem ≠ path := by
  rintro rfl
  exact Nat.lt_irrefl _ h.length_lt

/-- Without a `..` the route goes down from an ancestor. -/
theorem exists_into (h : stem.IsAncestorOf path) (hup : .up ∉ path.route) :
    ∃ stays name rest, path.route = stem.route ++ (stays ++ .into name :: rest) ∧
      ∀ step ∈ stays, step = .stay := by
  obtain ⟨tail, hroute, hgoes⟩ := h.route
  have hmem {step : Step} (hstep : step ∈ tail) : step ∈ path.route := by
    rw [hroute]
    exact List.mem_append_right _ hstep
  suffices ∃ stays name rest, tail = stays ++ .into name :: rest ∧ ∀ step ∈ stays, step = .stay by
    obtain ⟨stays, name, rest, rfl, hstays⟩ := this
    exact ⟨stays, name, rest, hroute, hstays⟩
  clear hroute
  induction tail with
  | nil => simp at hgoes
  | cons first rest ih =>
      cases first with
      | stay =>
          obtain ⟨stays, name, more, rfl, hstays⟩ :=
            ih (by simpa using hgoes) fun hstep => hmem (List.mem_cons_of_mem _ hstep)
          exact ⟨.stay :: stays, name, more, rfl, by simpa using hstays⟩
      | up => exact absurd (hmem List.mem_cons_self) hup
      | into name => exact ⟨[], name, rest, rfl, by simp⟩
      | slash => exact absurd (hmem List.mem_cons_self) (slash_notMem_route path)

end IsAncestorOf

theorem Closes.isAncestorOf (h : path.Closes before segment) (hstem : stem ∈ stems before) :
    stem.IsAncestorOf path := by
  obtain ⟨component, hroot, hcomponent⟩ := h.component
  obtain ⟨behind, hsegments, hblank⟩ := h.segments
  obtain ⟨first, last, between, lastComponent, hlastRoot, hlast, rfl, rfl⟩ :=
    exists_of_mem_stems hstem
  have hslash : ∀ piece ∈ first ++ [last], '/' ∉ piece := fun piece hpiece =>
    h.slash_notMem piece (List.mem_append_left _ (List.mem_append_left _ hpiece))
  have hstemSegments : (ofSegments (first ++ [last])).segments = first ++ [last] :=
    segments_ofSegments (by simp) hslash
  have hpathSegments : path.segments =
      first ++ [last] ++ (between ++ [segment] ++ behind) := by
    rw [hsegments]
    simp
  have hempty : (ofSegments (first ++ [last])).isEmpty = false :=
    isEmpty_ofSegments_concat (segment_ne_nil hlastRoot hlast)
  refine ⟨hempty, ⟨?_, ?_⟩, ?_, ?_, ?_⟩
  · have hprefix := toList_ofSegments_isPrefix (first ++ [last]) (between ++ [segment] ++ behind)
    rwa [← hpathSegments, ofSegments_segments] at hprefix
  · rw [components_of_isEmpty hempty, components_of_isEmpty h.isEmpty, hstemSegments,
      hpathSegments, partsAfter_append [] (first ++ [last]) (between ++ [segment] ++ behind),
      List.map_append]
    exact List.prefix_append _ _
  · rw [isAbsolute_of_isEmpty hempty, isAbsolute_of_isEmpty h.isEmpty, hstemSegments,
      hpathSegments]
    cases first <;> rfl
  · rw [hstemSegments, hpathSegments, List.append_assoc between [segment] behind]
    simp only [List.length_append, List.length_cons]
    omega
  · refine ⟨(between ++ [segment] ++ behind).filterMap stepOf?, ?_, ?_⟩
    · rw [Path.route, Path.route, hstemSegments, hpathSegments, List.filterMap_append]
    · rcases componentOf?_cases hroot hcomponent with ⟨hnil, _⟩ | hup | hinto
      · simp at hnil
      · exact ⟨.up, List.mem_filterMap.mpr ⟨segment, by simp, by rw [hup]; rfl⟩, by simp⟩
      · exact ⟨_, List.mem_filterMap.mpr ⟨segment, by simp, hinto⟩, by simp⟩

theorem isAncestorOf_of_mem_ancestors (hstem : stem ∈ path.ancestors) :
    stem.IsAncestorOf path := by
  rcases path.closes_or_ancestors_eq_nil with ⟨before, segment, hcloses⟩ | hnil
  · rw [hcloses.ancestors] at hstem
    exact hcloses.isAncestorOf hstem
  · rw [hnil] at hstem
    cases hstem

theorem Closes.exists_route (h : path.Closes before segment) :
    ∃ rest, path.route = before.filterMap stepOf? ++ rest ∧
      (before ≠ [] → ∃ step, (step = .up ∨ ∃ name, step = .into name) ∧
        ∃ stays, rest = step :: stays) := by
  obtain ⟨component, hroot, hcomponent⟩ := h.component
  obtain ⟨behind, hsegments, hblank⟩ := h.segments
  refine ⟨[segment].filterMap stepOf? ++ behind.filterMap stepOf?, ?_, ?_⟩
  · rw [Path.route, hsegments, List.filterMap_append, List.filterMap_append, List.append_assoc]
  · intro hbefore
    rcases componentOf?_cases hroot hcomponent with ⟨hnil, _⟩ | hup | hinto
    · exact absurd hnil hbefore
    · exact ⟨.up, Or.inl rfl, behind.filterMap stepOf?, by rw [hup]; rfl⟩
    · exact ⟨.into (String.ofList segment), Or.inr ⟨_, rfl⟩, behind.filterMap stepOf?,
        by simp [hinto]⟩

theorem EndsWith.closes {name : String} (h : path.EndsWith before name) :
    path.Closes before name.toList :=
  ⟨⟨_, by simp, h.component⟩, [], by rw [h.segments, List.append_nil], by simp [AreBlank]⟩

/-- What is made before a file is its directory, and what is made before that. -/
theorem EndsWith.ancestors {file : Path} {name other : String} (h : path.EndsWith before name)
    (hfile : file.EndsWith path.joint other) : file.ancestors = path :: path.ancestors := by
  have hname : name.toList ≠ [] := segment_ne_nil (by simp) h.component
  have hjoint : path.joint = before ++ [name.toList] := by
    rw [joint, h.segments, if_neg (by simpa using hname)]
  rw [hfile.closes.ancestors, hjoint, stems_concat (by simp) h.component, ← h.eq_ofSegments,
    h.closes.ancestors]

end Scaffold.Path
