import Scaffold.Path
import Mathlib.Data.List.Induction

/-!
# Routes and stems

The route of a path is what a walk along it does before a slash at the end. The stems of a path are
the prefixes that end with a component, the longest first: the directories that have to be there
for the path to lead anywhere. Both are read off the segments, so a path is cut where its segments
are.
-/

namespace Scaffold.Path

variable {path base part : Path} {before segs : List (List Char)} {segment : List Char}

/-! ### Segments -/

theorem notMem_of_mem_splitOn {α : Type} [DecidableEq α] {separator : α} {text piece : List α}
    (h : piece ∈ text.splitOn separator) : separator ∉ piece := by
  induction text generalizing piece with
  | nil => simp_all
  | cons first rest ih =>
      rw [List.splitOn_cons_eq_if_modifyHead] at h
      split at h
      · rcases List.mem_cons.mp h with rfl | h
        · exact List.not_mem_nil
        · exact ih h
      · next hfirst =>
        cases hpieces : rest.splitOn separator with
        | nil => simp [hpieces] at h
        | cons piece' pieces =>
            rw [hpieces, List.modifyHead_cons, List.mem_cons] at h
            rcases h with rfl | h
            · have hpiece' := ih (hpieces ▸ List.mem_cons_self)
              have hne : separator ≠ first := fun h => hfirst (by simp [h])
              simp [hne, hpiece']
            · exact ih (hpieces ▸ List.mem_cons_of_mem _ h)

theorem slash_notMem (h : segment ∈ path.segments) : '/' ∉ segment :=
  notMem_of_mem_splitOn h

theorem segments_ne_nil (path : Path) : path.segments ≠ [] :=
  List.splitOn_ne_nil _ _

theorem toList_ofSegments (segs : List (List Char)) :
    (ofSegments segs).text.toList = ['/'].intercalate segs := by
  simp [ofSegments]

theorem segments_ofSegments (hne : segs ≠ []) (hslash : ∀ segment ∈ segs, '/' ∉ segment) :
    (ofSegments segs).segments = segs := by
  rw [segments, toList_ofSegments, List.splitOn_intercalate '/' hslash hne]

theorem intercalate_append {α : Type} (separator : List α) {first second : List (List α)}
    (hfirst : first ≠ []) (hsecond : second ≠ []) :
    separator.intercalate (first ++ second) =
      separator.intercalate first ++ separator ++ separator.intercalate second := by
  induction first with
  | nil => exact absurd rfl hfirst
  | cons head rest ih =>
      cases rest with
      | nil => simp [List.intercalate_cons_of_ne_nil hsecond]
      | cons next rest =>
          have hrest := ih (List.cons_ne_nil next rest)
          rw [List.cons_append] at hrest
          simp [hrest]

theorem mem_intercalate {α : Type} {separator : List α} {pieces : List (List α)} {a : α}
    (h : a ∈ separator.intercalate pieces) : a ∈ separator ∨ ∃ piece ∈ pieces, a ∈ piece := by
  induction pieces with
  | nil => simp at h
  | cons piece rest ih =>
      by_cases hrest : rest = []
      · rw [hrest, List.intercalate_singleton] at h
        exact Or.inr ⟨piece, List.mem_cons_self, h⟩
      · rw [List.intercalate_cons_of_ne_nil hrest] at h
        simp only [List.mem_append] at h
        rcases h with (h | h) | h
        · exact Or.inr ⟨piece, List.mem_cons_self, h⟩
        · exact Or.inl h
        · rcases ih h with h | ⟨other, hother, h⟩
          · exact Or.inl h
          · exact Or.inr ⟨other, List.mem_cons_of_mem _ hother, h⟩

theorem toList_ofSegments_isPrefix (first second : List (List Char)) :
    (ofSegments first).text.toList <+: (ofSegments (first ++ second)).text.toList := by
  rw [toList_ofSegments, toList_ofSegments]
  cases first with
  | nil => exact List.nil_prefix
  | cons head rest =>
      cases second with
      | nil => simp
      | cons next more =>
          rw [intercalate_append ['/'] (List.cons_ne_nil head rest) (List.cons_ne_nil next more),
            List.append_assoc]
          exact List.prefix_append _ _

theorem toList_ofSegments_concat (before : List (List Char)) (segment : List Char) :
    ∃ stem, (ofSegments (before ++ [segment])).text.toList = stem ++ segment := by
  rw [toList_ofSegments]
  cases before with
  | nil => exact ⟨[], by simp⟩
  | cons first rest =>
      rw [intercalate_append ['/'] (List.cons_ne_nil first rest) (List.cons_ne_nil segment []),
        List.intercalate_singleton]
      exact ⟨_, rfl⟩

theorem isEmpty_ofSegments_concat (hsegment : segment ≠ []) :
    (ofSegments (before ++ [segment])).isEmpty = false := by
  obtain ⟨stem, hstem⟩ := toList_ofSegments_concat before segment
  simp [isEmpty, hstem, hsegment]

theorem endsWithSlash_ofSegments_concat (hsegment : segment ≠ []) (hslash : '/' ∉ segment) :
    (ofSegments (before ++ [segment])).endsWithSlash = false := by
  obtain ⟨stem, hstem⟩ := toList_ofSegments_concat before segment
  rw [endsWithSlash, hstem, List.getLast?_append]
  cases hlast : segment.getLast? with
  | none => exact absurd (List.getLast?_eq_none_iff.mp hlast) hsegment
  | some c =>
      have hc : c ≠ '/' := fun h => hslash (h ▸ List.mem_of_getLast? hlast)
      simpa using hc

theorem isAbsolute_ofSegments_cons (hsegment : segment ≠ []) (hslash : '/' ∉ segment) :
    (ofSegments (segment :: segs)).isAbsolute = false := by
  obtain ⟨c, rest, rfl⟩ := List.exists_cons_of_ne_nil hsegment
  have hc : c ≠ '/' := fun h => hslash (h ▸ List.mem_cons_self)
  simp [isAbsolute, toList_ofSegments, hc]

theorem length_le_utf8ByteSize (text : List Char) :
    text.length ≤ (String.ofList text).utf8ByteSize := by
  induction text with
  | nil => exact Nat.zero_le _
  | cons c rest ih =>
      have hc : 0 < (String.ofList [c]).utf8ByteSize := by
        rw [← String.singleton_eq_ofList, String.utf8ByteSize_singleton]
        exact Char.utf8Size_pos c
      rw [← List.singleton_append, String.ofList_append, String.utf8ByteSize_append,
        List.length_append, List.length_singleton]
      omega

/-! ### Routes -/

def route (path : Path) : List Step :=
  path.segments.filterMap stepOf?

theorem steps_eq_route (hslash : path.endsWithSlash = false) : path.steps = path.route := by
  simp [steps, route, hslash]

def joint (path : Path) : List (List Char) :=
  if path.segments.getLast? = some [] then path.segments.dropLast else path.segments

theorem filterMap_stepOf?_joint (path : Path) : path.joint.filterMap stepOf? = path.route := by
  unfold joint route
  split
  · next hlast =>
    obtain ⟨init, hinit⟩ := List.getLast?_eq_some_iff.mp hlast
    simp [hinit, stepOf?]
  · rfl

theorem segments_getLast?_ne_nil (hempty : path.isEmpty = false)
    (hslash : path.endsWithSlash = false) : path.segments.getLast? ≠ some [] := by
  intro hlast
  obtain ⟨init, hinit⟩ := List.getLast?_eq_some_iff.mp hlast
  have hpath := ofSegments_segments path
  rw [hinit] at hpath
  cases init with
  | nil =>
      rw [← hpath] at hempty
      simp [isEmpty, toList_ofSegments] at hempty
  | cons first rest =>
      rw [← hpath, endsWithSlash, toList_ofSegments,
        intercalate_append ['/'] (List.cons_ne_nil first rest) (List.cons_ne_nil [] [])] at hslash
      simp at hslash

theorem segments_join (hrelative : part.isAbsolute = false) :
    (base.join part).segments = base.joint ++ part.segments := by
  by_cases hempty : base.isEmpty = true
  · have hnil : base.text.toList = [] := List.isEmpty_iff.mp hempty
    rw [join_of_isEmpty hempty]
    simp [joint, segments, hnil]
  by_cases hslash : base.endsWithSlash = true
  · obtain ⟨stem, hstem⟩ : ∃ stem, base.text.toList = stem ++ ['/'] :=
      List.getLast?_eq_some_iff.mp (by simpa [endsWithSlash] using hslash)
    have hsegments : base.segments = stem.splitOn '/' ++ [[]] := by
      rw [segments, hstem, List.splitOn_append_cons_self, List.splitOn_nil]
    have hjoint : base.joint = stem.splitOn '/' := by
      simp [joint, hsegments]
    have htext : (base.join part).text.toList = stem ++ '/' :: part.text.toList := by
      simp [join, hrelative, hslash, hstem]
    rw [segments, htext, List.splitOn_append_cons_self, hjoint]
    rfl
  · rw [Bool.not_eq_true] at hempty hslash
    have htext : (base.join part).text.toList = base.text.toList ++ '/' :: part.text.toList := by
      simp [join, hrelative, hslash, hempty]
    rw [segments, htext, List.splitOn_append_cons_self, joint,
      if_neg (segments_getLast?_ne_nil hempty hslash)]
    rfl

theorem joint_join (hrelative : part.isAbsolute = false) :
    (base.join part).joint = base.joint ++ part.joint := by
  have hne := segments_ne_nil part
  have hlast : (base.joint ++ part.segments).getLast? = part.segments.getLast? := by
    rw [List.getLast?_append, List.getLast?_eq_some_getLast hne]
    rfl
  rw [joint, segments_join hrelative, hlast, List.dropLast_append_of_ne_nil hne]
  by_cases hslash : part.segments.getLast? = some [] <;> simp [joint, hslash]

theorem toList_join_cases (base : Path) (hrelative : part.isAbsolute = false) :
    (base.join part).text.toList = base.text.toList ++ part.text.toList ∨
      base.isEmpty = false ∧
        (base.join part).text.toList = base.text.toList ++ '/' :: part.text.toList := by
  unfold join
  rw [if_neg (by simp [hrelative])]
  split
  · simp
  · simp_all

theorem isAbsolute_join (hrelative : part.isAbsolute = false) :
    (base.join part).isAbsolute = base.isAbsolute := by
  unfold isAbsolute at hrelative ⊢
  rcases toList_join_cases base hrelative with htext | ⟨hempty, htext⟩
  · rw [htext]
    cases hbase : base.text.toList with
    | nil => simpa using hrelative
    | cons c rest => simp
  · rw [htext]
    cases hbase : base.text.toList with
    | nil => simp [isEmpty, hbase] at hempty
    | cons c rest => simp

theorem notMem_join {c : Char} (hrelative : part.isAbsolute = false) (hc : c ≠ '/')
    (hbase : c ∉ base.text.toList) (hpart : c ∉ part.text.toList) :
    c ∉ (base.join part).text.toList := by
  rcases toList_join_cases base hrelative with htext | ⟨_, htext⟩
  · simp [htext, hbase, hpart]
  · simp [htext, hbase, hpart, hc]

theorem isPrefix_join (base : Path) (hrelative : part.isAbsolute = false) :
    base.text.toList <+: (base.join part).text.toList := by
  rcases toList_join_cases base hrelative with htext | ⟨_, htext⟩
  · exact ⟨_, htext.symm⟩
  · exact ⟨_, htext.symm⟩

theorem isSuffix_join (base part : Path) :
    part.text.toList <:+ (base.join part).text.toList := by
  unfold join
  split
  · exact List.suffix_rfl
  · split
    · simp
    · rw [String.toList_append]
      exact List.suffix_append _ _

theorem size_join_eq {other : Path} (base : Path) (hpart : part.isAbsolute = false)
    (hother : other.isAbsolute = false)
    (hsize : part.text.utf8ByteSize = other.text.utf8ByteSize) :
    (base.join part).text.utf8ByteSize = (base.join other).text.utf8ByteSize := by
  unfold join
  simp only [hpart, hother]
  by_cases hbase : (base.isEmpty || base.endsWithSlash) = true
  · simp [hbase, String.utf8ByteSize_append, hsize]
  · simp [hbase, String.utf8ByteSize_append, hsize]

/-! ### Stems -/

theorem partsAfter_append (start first second : List (List Char)) :
    partsAfter start (first ++ second) =
      partsAfter start first ++ partsAfter (start ++ first) second := by
  induction first generalizing start with
  | nil => simp [partsAfter]
  | cons segment rest ih =>
      rw [List.cons_append, partsAfter, partsAfter]
      have hrest := ih (start ++ [segment])
      rw [List.append_assoc, List.singleton_append] at hrest
      cases hcomponent : componentOf? start.isEmpty segment with
      | none => exact hrest
      | some component => cases component <;> simp [hrest]

theorem partsAfter_concat_none (h : componentOf? before.isEmpty segment = none) :
    partsAfter [] (before ++ [segment]) = partsAfter [] before := by
  simp [partsAfter_append, partsAfter, h]

theorem partsAfter_concat {component : Component} (hroot : component ≠ .root)
    (h : componentOf? before.isEmpty segment = some component) :
    partsAfter [] (before ++ [segment]) =
      partsAfter [] before ++ [(component, ofSegments (before ++ [segment]))] := by
  cases component with
  | root => exact absurd rfl hroot
  | here | up | name => simp [partsAfter_append, partsAfter, h]

theorem eq_nil_of_componentOf?_root (h : componentOf? before.isEmpty segment = some .root) :
    before = [] ∧ segment = [] := by
  unfold componentOf? at h
  split at h
  · next hnil =>
    split at h
    · next hempty => exact ⟨List.isEmpty_iff.mp hempty, hnil⟩
    · cases h
  · split at h
    · split at h <;> cases h
    · split at h <;> cases h

theorem segment_ne_nil {component : Component} (hroot : component ≠ .root)
    (h : componentOf? before.isEmpty segment = some component) : segment ≠ [] := by
  rintro rfl
  unfold componentOf? at h
  rw [if_pos rfl] at h
  split at h
  · exact hroot (Option.some.inj h).symm
  · cases h

theorem stepOf?_of_componentOf?_none (h : componentOf? before.isEmpty segment = none) :
    stepOf? segment = none ∨ stepOf? segment = some .stay := by
  unfold componentOf? at h
  split at h
  · next hnil => exact Or.inl (by rw [hnil]; rfl)
  · split at h
    · next hdot => exact Or.inr (by rw [hdot]; rfl)
    · split at h <;> cases h

theorem componentOf?_cases {component : Component} (hroot : component ≠ .root)
    (h : componentOf? before.isEmpty segment = some component) :
    (before = [] ∧ segment = ['.']) ∨ segment = ['.', '.'] ∨
      stepOf? segment = some (.into (String.ofList segment)) := by
  have hne := segment_ne_nil hroot h
  unfold componentOf? at h
  rw [if_neg hne] at h
  split at h
  · next hdot =>
    split at h
    · next hempty => exact Or.inl ⟨List.isEmpty_iff.mp hempty, hdot⟩
    · cases h
  · next hdot =>
    split at h
    · next hup => exact Or.inr (Or.inl hup)
    · next hup => exact Or.inr (Or.inr (by rw [stepOf?, if_neg hne, if_neg hdot, if_neg hup]))

/-- The prefixes that end with a component, the longest first; the root is left out. -/
def stems (segs : List (List Char)) : List Path :=
  (((partsAfter [] segs).filter (·.1 ≠ .root)).map Prod.snd).reverse

theorem stems_concat_none (h : componentOf? before.isEmpty segment = none) :
    stems (before ++ [segment]) = stems before := by
  rw [stems, partsAfter_concat_none h, stems]

theorem stems_root : stems [[]] = [] := by decide

theorem stems_concat {component : Component} (hroot : component ≠ .root)
    (h : componentOf? before.isEmpty segment = some component) :
    stems (before ++ [segment]) = ofSegments (before ++ [segment]) :: stems before := by
  rw [stems, partsAfter_concat hroot h]
  simp [stems, hroot]

/-- One more segment changes nothing, or is the top, or ends one more stem. -/
theorem stems_concat_cases (before : List (List Char)) (segment : List Char) :
    (stems (before ++ [segment]) = stems before ∧
        (stepOf? segment = none ∨ stepOf? segment = some .stay)) ∨
      (before = [] ∧ segment = []) ∨
      ∃ component, component ≠ Component.root ∧
        componentOf? before.isEmpty segment = some component ∧
        stems (before ++ [segment]) = ofSegments (before ++ [segment]) :: stems before := by
  cases h : componentOf? before.isEmpty segment with
  | none => exact Or.inl ⟨stems_concat_none h, stepOf?_of_componentOf?_none h⟩
  | some component =>
      by_cases hroot : component = .root
      · rw [hroot] at h
        exact Or.inr (Or.inl (eq_nil_of_componentOf?_root h))
      · exact Or.inr (Or.inr ⟨component, hroot, rfl, stems_concat hroot h⟩)

theorem exists_of_mem_stems {stem : Path} (hstem : stem ∈ stems segs) :
    ∃ before segment behind component, component ≠ Component.root ∧
      componentOf? before.isEmpty segment = some component ∧
      segs = before ++ [segment] ++ behind ∧ stem = ofSegments (before ++ [segment]) := by
  induction segs using List.reverseRecOn with
  | nil => exact absurd hstem List.not_mem_nil
  | append_singleton init last ih =>
      have hinit (hmem : stem ∈ stems init) :
          ∃ before segment behind component, component ≠ Component.root ∧
            componentOf? before.isEmpty segment = some component ∧
            init ++ [last] = before ++ [segment] ++ behind ∧
            stem = ofSegments (before ++ [segment]) := by
        obtain ⟨before, segment, behind, component, hroot, h, rfl, hends⟩ := ih hmem
        exact ⟨before, segment, behind ++ [last], component, hroot, h,
          List.append_assoc _ behind [last], hends⟩
      rcases stems_concat_cases init last with
        ⟨hstems, _⟩ | ⟨rfl, rfl⟩ | ⟨component, hroot, h, hstems⟩
      · rw [hstems] at hstem
        exact hinit hstem
      · exact absurd hstem (by rw [List.nil_append, stems_root]; exact List.not_mem_nil)
      · rw [hstems] at hstem
        rcases List.mem_cons.mp hstem with rfl | hmem
        · exact ⟨init, last, [], component, hroot, h, by simp, rfl⟩
        · exact hinit hmem

theorem isPrefix_of_mem_stems {stem : Path} (hstem : stem ∈ stems segs) :
    stem.isEmpty = false ∧ stem.text.toList <+: (ofSegments segs).text.toList := by
  obtain ⟨before, segment, behind, component, hroot, h, rfl, rfl⟩ := exists_of_mem_stems hstem
  exact ⟨isEmpty_ofSegments_concat (segment_ne_nil hroot h),
    toList_ofSegments_isPrefix (before ++ [segment]) behind⟩

/-- A path that ends with a component is the first of its chain, and its stems are the rest. -/
theorem chain_ofSegments {component : Component} (hroot : component ≠ .root)
    (h : componentOf? before.isEmpty segment = some component)
    (hslash : ∀ piece ∈ before ++ [segment], '/' ∉ piece) :
    (ofSegments (before ++ [segment])).chain =
      ofSegments (before ++ [segment]) :: stems before := by
  have hempty : (ofSegments (before ++ [segment])).isEmpty = false :=
    isEmpty_ofSegments_concat (segment_ne_nil hroot h)
  rw [chain, parts, hempty, segments_ofSegments (by simp) hslash, partsAfter_concat hroot h]
  simp [stems, hroot]

theorem exists_last_part (hslash : ∀ piece ∈ before, '/' ∉ piece) :
    (partsAfter [] before = [] ∧ stems before = []) ∨
      ∃ rest component stem, partsAfter [] before = rest ++ [(component, stem)] ∧
        stem.chain = stems before := by
  induction before using List.reverseRecOn with
  | nil => exact Or.inl ⟨rfl, rfl⟩
  | append_singleton before piece ih =>
      cases h : componentOf? before.isEmpty piece with
      | none =>
          rw [partsAfter_concat_none h, stems_concat_none h]
          exact ih fun segment hsegment => hslash segment (List.mem_append_left _ hsegment)
      | some component =>
          by_cases hroot : component = .root
          · rw [hroot] at h
            obtain ⟨rfl, rfl⟩ := eq_nil_of_componentOf?_root h
            exact Or.inr ⟨[], .root, ⟨"/"⟩, rfl, by decide⟩
          · refine Or.inr ⟨partsAfter [] before, component, _, partsAfter_concat hroot h, ?_⟩
            rw [chain_ofSegments hroot h hslash, stems_concat hroot h]

theorem exists_of_mem_partsAfter {before : List (List Char)} {part : Component × Path}
    (h : part ∈ partsAfter before segs) :
    ∃ isFirst, ∃ segment ∈ segs, componentOf? isFirst segment = some part.1 := by
  induction segs generalizing before with
  | nil => simp [partsAfter] at h
  | cons segment rest ih =>
      have hlater (h : part ∈ partsAfter (before ++ [segment]) rest) :
          ∃ isFirst, ∃ other ∈ segment :: rest, componentOf? isFirst other = some part.1 := by
        obtain ⟨isFirst, other, hother, hcomponent⟩ := ih h
        exact ⟨isFirst, other, List.mem_cons_of_mem _ hother, hcomponent⟩
      rw [partsAfter] at h
      cases hcomponent : componentOf? before.isEmpty segment with
      | none =>
          rw [hcomponent] at h
          exact hlater h
      | some component =>
          have hhere (h : part.1 = component) :
              ∃ isFirst, ∃ other ∈ segment :: rest, componentOf? isFirst other = some part.1 :=
            ⟨before.isEmpty, segment, List.mem_cons_self, by rw [hcomponent, h]⟩
          rw [hcomponent] at h
          cases component with
          | root | here | up | name =>
              rcases List.mem_cons.mp h with rfl | h
              · exact hhere rfl
              · exact hlater h

theorem eq_of_componentOf?_up {isFirst : Bool} {segment : List Char}
    (h : componentOf? isFirst segment = some .up) : segment = ['.', '.'] := by
  unfold componentOf? at h
  split at h
  · split at h <;> cases h
  · split at h
    · split at h <;> cases h
    · split at h
      · assumption
      · cases h

theorem eq_nil_of_componentOf?_here (h : componentOf? before.isEmpty segment = some .here) :
    before = [] := by
  unfold componentOf? at h
  split at h
  · split at h <;> cases h
  · split at h
    · split at h
      · next hempty => exact List.isEmpty_iff.mp hempty
      · cases h
    · split at h <;> cases h

theorem eq_of_componentOf?_name {isFirst : Bool} {segment text : List Char}
    (h : componentOf? isFirst segment = some (.name text)) : segment = text := by
  unfold componentOf? at h
  split at h
  · split at h <;> cases h
  · split at h
    · split at h <;> cases h
    · split at h
      · cases h
      · exact Component.name.inj (Option.some.inj h)

/-! ### Ways up -/

theorem mem_joint (h : segment ∈ path.joint) : segment ∈ path.segments := by
  unfold joint at h
  split at h
  · exact List.dropLast_subset _ h
  · exact h

theorem mem_components {component : Component} (hroot : component ≠ .root)
    (hcomponent : ∀ isFirst, componentOf? isFirst segment = some component)
    (h : segment ∈ path.segments) : component ∈ path.components := by
  obtain ⟨first, last, hsegments⟩ := List.append_of_mem h
  have hempty : path.isEmpty = false := by
    rw [← Bool.not_eq_true]
    intro hempty
    rw [segments, List.isEmpty_iff.mp hempty] at h
    have hnil : segment = [] := by simpa using h
    have hfirst : componentOf? ([] : List (List Char)).isEmpty segment = some component :=
      hcomponent true
    exact segment_ne_nil hroot hfirst hnil
  have hparts : path.parts = partsAfter [] (first ++ [segment] ++ last) := by
    rw [parts, hempty, hsegments]
    simp
  rw [components, hparts, partsAfter_append, partsAfter_concat hroot (hcomponent _)]
  simp

theorem up_mem_components (h : ['.', '.'] ∈ path.segments) : .up ∈ path.components :=
  mem_components (by simp) (by simp [componentOf?]) h

theorem mem_route_cases {step : Step} (h : step ∈ path.route) :
    step = .stay ∨ (step = .up ∧ .up ∈ path.components) ∨
      ∃ name, step = .into (String.ofList name) ∧ .name name ∈ path.components := by
  obtain ⟨segment, hsegment, hstep⟩ := List.mem_filterMap.mp h
  by_cases hnil : segment = []
  · simp [stepOf?, hnil] at hstep
  by_cases hdot : segment = ['.']
  · have hstay : .stay = step := by simpa [stepOf?, hdot] using hstep
    exact Or.inl hstay.symm
  by_cases hup : segment = ['.', '.']
  · rw [hup] at hsegment
    have hstepUp : .up = step := by simpa [stepOf?, hup] using hstep
    exact Or.inr (Or.inl ⟨hstepUp.symm, up_mem_components hsegment⟩)
  · rw [stepOf?, if_neg hnil, if_neg hdot, if_neg hup] at hstep
    refine Or.inr (Or.inr ⟨segment, (Option.some.inj hstep).symm, ?_⟩)
    refine mem_components (by simp) (fun isFirst => ?_) hsegment
    rw [componentOf?, if_neg hnil, if_neg hdot, if_neg hup]

theorem eq_of_stepOf?_up {segment : List Char} (h : stepOf? segment = some .up) :
    segment = ['.', '.'] := by
  unfold stepOf? at h
  split at h
  · cases h
  · split at h
    · cases h
    · split at h
      · assumption
      · cases h

theorem up_notMem_join (hbase : .up ∉ base.components) (hpart : .up ∉ part.components) :
    ['.', '.'] ∉ (base.join part).segments := by
  intro h
  cases habsolute : part.isAbsolute with
  | true =>
      rw [join_of_isAbsolute habsolute] at h
      exact hpart (up_mem_components h)
  | false =>
      rw [segments_join habsolute] at h
      rcases List.mem_append.mp h with h | h
      · exact hbase (up_mem_components (mem_joint h))
      · exact hpart (up_mem_components h)

/-! ### Paths that end with a name -/

structure EndsWith (path : Path) (before : List (List Char)) (name : String) : Prop where
  segments : path.segments = before ++ [name.toList]
  component : componentOf? before.isEmpty name.toList = some (.name name.toList)

namespace EndsWith

variable {name : String}

theorem slash_notMem (h : path.EndsWith before name) :
    ∀ piece ∈ before ++ [name.toList], '/' ∉ piece := by
  rw [← h.segments]
  exact fun piece hpiece => Path.slash_notMem hpiece

theorem eq_ofSegments (h : path.EndsWith before name) :
    path = ofSegments (before ++ [name.toList]) := by
  rw [← h.segments, ofSegments_segments]

theorem mem_stems (h : path.EndsWith before name) : path ∈ stems (before ++ [name.toList]) := by
  rw [stems_concat (by simp) h.component, ← h.eq_ofSegments]
  exact List.mem_cons_self

theorem isEmpty (h : path.EndsWith before name) : path.isEmpty = false :=
  (isPrefix_of_mem_stems h.mem_stems).1

theorem route (h : path.EndsWith before name) :
    path.route = before.filterMap stepOf? ++ [.into name] := by
  have hstep : stepOf? name.toList = some (.into name) := by
    have hcomponent := h.component
    unfold componentOf? at hcomponent
    unfold stepOf?
    split at hcomponent
    · split at hcomponent <;> cases hcomponent
    · split at hcomponent
      · split at hcomponent <;> cases hcomponent
      · split at hcomponent
        · cases hcomponent
        · next hnil hdot hup => rw [if_neg hnil, if_neg hdot, if_neg hup, String.ofList_toList]
  rw [Path.route, h.segments]
  simp [hstep]

theorem steps (h : path.EndsWith before name) : path.steps = path.route := by
  apply steps_eq_route
  rw [h.eq_ofSegments]
  exact endsWithSlash_ofSegments_concat (segment_ne_nil (by simp) h.component)
    (h.slash_notMem _ (by simp))

end EndsWith

theorem endsWith_join {name : String} (hne : name.toList ≠ []) (hslash : '/' ∉ name.toList)
    (hdot : name.toList ≠ ['.']) (hup : name.toList ≠ ['.', '.']) (base : Path) :
    (base.join ⟨name⟩).EndsWith base.joint name := by
  have hrelative : (Path.mk name).isAbsolute = false := by
    obtain ⟨c, rest, hname⟩ := List.exists_cons_of_ne_nil hne
    have hc : c ≠ '/' := fun h => hslash (by rw [hname, h]; exact List.mem_cons_self)
    simp [isAbsolute, hname, hc]
  constructor
  · rw [segments_join hrelative]
    congr 1
    exact List.splitOn_eq_singleton hslash
  · rw [componentOf?, if_neg hne, if_neg hdot, if_neg hup]

/-- A path whose last character is no slash and no dot ends with a name. -/
theorem exists_endsWith {c : Char} (hlast : path.text.toList.getLast? = some c) (hslash : c ≠ '/')
    (hdot : c ≠ '.') : ∃ before name, path.EndsWith before name := by
  obtain ⟨before, segment, hsegments⟩ : ∃ before segment, path.segments = before ++ [segment] :=
    ⟨_, _, (List.dropLast_concat_getLast path.segments_ne_nil).symm⟩
  have hne : segment ≠ [] := by
    rintro rfl
    have hempty : path.isEmpty = false := by
      rw [isEmpty, List.isEmpty_eq_false_iff]
      rintro hnil
      simp [hnil] at hlast
    have hend : path.endsWithSlash = false := by simp [endsWithSlash, hlast, hslash]
    exact segments_getLast?_ne_nil hempty hend (by simp [hsegments])
  have hchar : segment.getLast? = some c := by
    obtain ⟨stem, hstem⟩ := toList_ofSegments_concat before segment
    rw [← hsegments, ofSegments_segments] at hstem
    rw [hstem, List.getLast?_append, List.getLast?_eq_some_getLast hne] at hlast
    rw [List.getLast?_eq_some_getLast hne, ← hlast]
    rfl
  have hdots : segment ≠ ['.'] ∧ segment ≠ ['.', '.'] := by
    constructor <;>
      rintro rfl <;>
      exact hdot (by simpa using hchar.symm)
  refine ⟨before, String.ofList segment, by rw [hsegments, String.toList_ofList], ?_⟩
  rw [String.toList_ofList, componentOf?, if_neg hne, if_neg hdots.1, if_neg hdots.2]

end Scaffold.Path
