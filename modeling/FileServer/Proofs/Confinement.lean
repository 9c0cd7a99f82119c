import FileServer.DocumentRoot

/-!
# Paths stay beneath the document root

A path is read as components (`Path.components`): a slash in front leads to the root, two dots lead
to the directory above, single dots and empty segments lead nowhere, and all else is a name. To push
a path onto another is to join the two, except that a path with a slash in front takes the place of
the other (`Path.pushed`).

What a request asks for is looked at component by component, and pushed onto the document root
(`DocumentRoot.resolve_eq`). So either some segment of its path is two dots, and it is refused, or
it leads from the document root on to names only, however it is spelled (`DocumentRoot.confines`).
-/

namespace FileServer

namespace Path

variable {root relative text front : List Char}

/-! ## Segments and names

A path is cut at its slashes. Empty segments and single dots name nothing; what is left are the
names, and among them two dots are the only ones that lead up. -/

theorem segments_slash (text : List Char) : segments ('/' :: text) = [] :: segments text := by
  rw [segments, if_pos rfl]

/-- A slash sets segments apart. -/
theorem segments_append (front text : List Char) :
    segments (front ++ '/' :: text) = segments front ++ segments text := by
  induction front with
  | nil => exact segments_slash text
  | cons c front ih =>
    rw [List.cons_append, segments, segments, ih]
    by_cases hc : c = '/'
    · rw [if_pos hc, if_pos hc, List.cons_append]
    · rw [if_neg hc, if_neg hc]
      cases hfront : segments front with
      | nil => exact absurd hfront (segments_ne_nil front)
      | cons first others => rfl

theorem names_append (front text : List Char) :
    names (front ++ '/' :: text) = names front ++ names text := by
  rw [names, segments_append, List.filter_append, names, names]

theorem names_slash (text : List Char) : names ('/' :: text) = names text := names_append [] text

/-- Slashes in front name nothing. -/
theorem names_dropWhile (text : List Char) : names (text.dropWhile (· = '/')) = names text := by
  induction text with
  | nil => rfl
  | cons c text ih =>
    by_cases hc : c = '/'
    · subst hc
      rw [List.dropWhile_cons_of_pos (by rfl), ih, names_slash]
    · rw [List.dropWhile_cons_of_neg (by simpa using hc)]

/-- A path leads upwards where two dots are one of its names. -/
theorem above_mem_names : above ∈ names text ↔ above ∈ segments text := by
  rw [names, List.mem_filter]
  exact and_iff_left (by decide)

/-- The check that is made is the one that is meant: whether two dots are among the names. -/
theorem climbs_iff : climbs text = true ↔ above ∈ names text := by
  rw [climbs, List.contains_iff_mem, above_mem_names]

/-! ## Components

The same path taken apart as a path library does: a component is a name, a dot at the front, the
root, or a step up. That the names agree with the segments is what ties the two readings
together. -/

/-- A step of a path. -/
inductive Component
  /-- to the root of all paths -/
  | root
  /-- nowhere, which is said only at the start of a path -/
  | here
  /-- to the directory above -/
  | above
  /-- to what has a name -/
  | name (text : List Char)
  deriving DecidableEq, Repr

/-- Where a segment leads that is neither empty nor a single dot. -/
def Component.of (segment : List Char) : Component :=
  if segment = Path.above then .above else .name segment

/-- Whether a step does not leave the directory that it starts from. -/
def Component.stays : Component → Bool
  | here => true
  | name _ => true
  | _ => false

/-- What a path starts with, if that is no name. -/
def lead (path : List Char) : List Component :=
  if path.head? = some '/' then [.root]
  else if (segments path).head? = some here then [.here]
  else []

/-- The steps of a path. -/
def components (path : List Char) : List Component := lead path ++ (names path).map .of

/-- A path pushed onto another. -/
def pushed (root path : List Char) : List Char :=
  if path.head? = some '/' then path else join root path

/-- Where the segments of two paths that have been joined come from. -/
theorem segments_join (h : root ≠ []) (relative : List Char) :
    ∃ front, segments (join root relative) = segments front ++ segments relative ∧
      (segments root = segments front ∨ segments root = segments front ++ [[]]) := by
  rw [join]
  by_cases hslash : root.getLast? = some '/'
  · obtain ⟨front, rfl⟩ := List.getLast?_eq_some_iff.mp hslash
    rw [if_pos (.inr hslash)]
    refine ⟨front, ?_, .inr (segments_append front [])⟩
    rw [List.append_assoc]
    exact segments_append front relative
  · rw [if_neg (not_or.mpr ⟨h, hslash⟩)]
    exact ⟨root, segments_append root relative, .inl rfl⟩

/-- Joined paths have the names of both. A slash at the end of the first one makes an empty segment,
which names nothing. -/
theorem names_join (h : root ≠ []) (relative : List Char) :
    names (join root relative) = names root ++ names relative := by
  obtain ⟨front, hjoin, hroot⟩ := segments_join h relative
  have hfront : names root = names front := by
    rcases hroot with hroot | hroot
    · rw [names, hroot, names]
    · rw [names, hroot, List.filter_append, names]
      exact List.append_nil _
  rw [hfront, names, hjoin, List.filter_append, names, names]

/-- Joined paths start as the first of them does. -/
theorem lead_join (h : root ≠ []) (relative : List Char) :
    lead (join root relative) = lead root := by
  obtain ⟨front, hjoin, hroot⟩ := segments_join h relative
  obtain ⟨first, others, hfront⟩ := List.exists_cons_of_ne_nil (segments_ne_nil front)
  have hsegments : (segments (join root relative)).head? = (segments root).head? := by
    rw [hjoin, hfront]
    rcases hroot with hroot | hroot <;> rw [hroot, hfront] <;> rfl
  have hhead : (join root relative).head? = root.head? := by
    obtain ⟨c, root, rfl⟩ := List.exists_cons_of_ne_nil h
    rw [join]
    split <;> rfl
  rw [lead, lead, hhead, hsegments]

/-- **Joined paths** lead where the first leads, and from there to the names of the second. -/
theorem components_join (h : root ≠ []) (relative : List Char) :
    components (join root relative) = components root ++ (names relative).map .of := by
  rw [components, components, lead_join h, names_join h, List.map_append, List.append_assoc]

/-- A path that does not lead upwards leads to names. -/
theorem map_of_names (h : above ∉ names text) :
    (names text).map Component.of = (names text).map .name := by
  refine List.map_congr_left fun segment hsegment => if_neg ?_
  rintro rfl
  exact h hsegment

end Path

namespace DocumentRoot

open FileServer.Path

/-! ## What a request asks for

The path of a request is taken as relative, whatever slashes it starts with, and joined to the
document root unless it leads up. -/

/-- What is joined to the document root does not start with a slash, however many stood in front: it
would take the place of the root otherwise. -/
theorem head?_relative (url : List Char) : (relative url).head? ≠ some '/' := by
  intro hslash
  have hfirst := List.head?_dropWhile_not (· = '/') (pathPart url)
  rw [← relative, hslash] at hfirst
  simp at hfirst

/-- The slashes in front of a path make no difference to where it leads. -/
theorem names_relative (url : List Char) : names (relative url) = names (pathPart url) :=
  names_dropWhile _

/-- What a request asks for does not leave the document root exactly if it leads upwards nowhere. -/
theorem stays_iff (url : List Char) :
    (components (relative url)).all Component.stays = true ↔ above ∉ names (pathPart url) := by
  -- with no slash in front there is nothing to lead to the root
  have hlead : (lead (relative url)).all Component.stays = true := by
    rw [lead, if_neg (head?_relative url)]
    split <;> rfl
  rw [components, List.all_append, hlead, Bool.true_and, List.all_eq_true, names_relative]
  constructor
  · intro hall habove
    have hstays := hall _ (List.mem_map_of_mem habove)
    cases hstays
  · intro habove
    rw [map_of_names habove]
    intro component hcomponent
    obtain ⟨text, -, rfl⟩ := List.mem_map.mp hcomponent
    rfl

/-- A request's path is looked at component by component, and pushed onto the document root. -/
theorem resolve_eq (root url : String) :
    resolve root url =
      if (components (relative url.toList)).all Component.stays then
        some (.ofList (pushed root.toList (relative url.toList)))
      else none := by
  have hclimbs : climbs (relative url.toList) = true ↔ above ∈ names (pathPart url.toList) := by
    rw [climbs_iff, names_relative]
  rw [resolve, pushed, if_neg (head?_relative url.toList)]
  -- both look for two dots among the names of the path
  by_cases habove : above ∈ names (pathPart url.toList)
  · rw [if_pos (hclimbs.mpr habove), if_neg fun h => (stays_iff _).mp h habove]
  · rw [if_neg fun h => habove (hclimbs.mp h), if_pos ((stays_iff _).mpr habove)]

/-! ## How a path is told from what follows it -/

/-- The path ends at the first of the marks, so what stands behind one of them is no part of it. -/
theorem pathPart_append {mark : Char} (hmark : mark = '?' ∨ mark = '#') (url tail : List Char) :
    pathPart (url ++ mark :: tail) = pathPart url := by
  induction url with
  | nil => rcases hmark with rfl | rfl <;> rfl
  | cons c url ih =>
    rw [pathPart, pathPart] at ih ⊢
    rw [List.cons_append, List.takeWhile_cons, List.takeWhile_cons, ih]

/-- Only the path counts. -/
theorem resolve_congr {url' : String} (h : pathPart url'.toList = pathPart url.toList)
    (root : String) : resolve root url' = resolve root url := by
  rw [resolve, resolve, relative, relative, h]

/-- A query or a fragment does not change what is asked for, whatever it consists of. -/
theorem resolve_append {mark : String} (hmark : mark = "?" ∨ mark = "#") (root url tail : String) :
    resolve root (url ++ mark ++ tail) = resolve root url := by
  refine resolve_congr ?_ root
  rw [String.toList_append, String.toList_append, List.append_assoc]
  rcases hmark with rfl | rfl
  · exact pathPart_append (.inl rfl) _ _
  · exact pathPart_append (.inr rfl) _ _

/-- However many slashes stand in front, the path that is joined to the document root is the
same. -/
theorem resolve_slashes (root url : String) (n : Nat) :
    resolve root (.ofList (List.replicate n '/') ++ url) = resolve root url := by
  have hrelative : relative (List.replicate n '/' ++ url.toList) = relative url.toList := by
    induction n with
    | zero => rfl
    | succ n ih =>
      rw [← ih, List.replicate_succ]
      rfl
  rw [resolve, resolve, String.toList_append, String.toList_ofList, hrelative]

/-- A segment that is empty or a single dot is part of the path, and does not lead upwards. -/
theorem above_mem_segments_front {segment : List Char} (h : segment = [] ∨ segment = here)
    (url : List Char) :
    above ∈ segments (pathPart (segment ++ '/' :: url)) ↔ above ∈ segments (pathPart url) := by
  have hpart : pathPart (segment ++ '/' :: url) = segment ++ '/' :: pathPart url := by
    rcases h with rfl | rfl <;> rfl
  have hnot : above ∉ segments segment := by
    rcases h with rfl | rfl <;> decide
  rw [hpart, segments_append, List.mem_append]
  exact or_iff_right hnot

/-- How requests are kept beneath a document root. -/
structure Confines (root url : String) : Prop where
  /-- a request is refused exactly if two dots are a segment of its path -/
  refused_iff : resolve root url = none ↔ above ∈ segments (pathPart url.toList)
  /-- otherwise its path, without the slashes in front, is joined to the document root, which it
  does not replace, and leads from there on to its own names, none of which leads upwards -/
  resolved : above ∉ segments (pathPart url.toList) →
    ∃ path : String, resolve root url = some path ∧
      path.toList = pushed root.toList ((pathPart url.toList).dropWhile (· = '/')) ∧
      path.toList = join root.toList ((pathPart url.toList).dropWhile (· = '/')) ∧
      components path.toList =
        components root.toList ++ (names (pathPart url.toList)).map .name ∧
      above ∉ names (pathPart url.toList)
  /-- what stands behind the path is harmless -/
  behind : ∀ mark tail : String, mark = "?" ∨ mark = "#" →
    resolve root (url ++ mark ++ tail) = resolve root url
  /-- slashes in front make no difference -/
  slashes : ∀ n, resolve root (.ofList (List.replicate n '/') ++ url) = resolve root url
  /-- empty segments and single dots in front hide nothing -/
  hidden : ∀ front : List (List Char), (∀ segment ∈ front, segment = [] ∨ segment = here) →
    (resolve root (.ofList (front.flatMap (· ++ ['/'])) ++ url) = none ↔ resolve root url = none)

/-- A request is refused exactly if a segment of its path is two dots. Three dots are a name, and so
are dots with anything else. -/
theorem resolve_eq_none (root url : String) :
    resolve root url = none ↔ above ∈ segments (pathPart url.toList) := by
  rw [resolve_eq, ← above_mem_names]
  by_cases habove : above ∈ names (pathPart url.toList)
  · rw [if_neg fun h => (stays_iff _).mp h habove]
    exact iff_of_true rfl habove
  · rw [if_pos ((stays_iff _).mpr habove)]
    exact iff_of_false (fun h => nomatch h) habove

/-- **Confinement.** No request leads out of the document root. -/
theorem confines (hroot : root ≠ "") (url : String) : Confines root url := by
  have hroot' : root.toList ≠ [] := by
    intro hnil
    exact hroot (String.toList_eq_nil_iff.mp hnil)
  refine ⟨resolve_eq_none root url, ?_, fun _ tail hmark => resolve_append hmark root url tail,
    resolve_slashes root url, ?_⟩
  · intro habove
    rw [← above_mem_names] at habove
    have hpushed : pushed root.toList (relative url.toList) =
        join root.toList (relative url.toList) :=
      if_neg (head?_relative _)
    refine ⟨.ofList (pushed root.toList (relative url.toList)), ?_, ?_, ?_, ?_, habove⟩
    · rw [resolve_eq, if_pos ((stays_iff _).mpr habove)]
    · exact String.toList_ofList
    · exact String.toList_ofList.trans hpushed
    · rw [String.toList_ofList, hpushed, components_join hroot', names_relative,
        map_of_names habove]
  · intro front hfront
    rw [resolve_eq_none, resolve_eq_none, String.toList_append, String.toList_ofList]
    -- the segments in front are taken off one by one
    induction front with
    | nil => exact Iff.rfl
    | cons segment front ih =>
      obtain ⟨hsegment, hrest⟩ := List.forall_mem_cons.mp hfront
      rw [List.flatMap_cons, List.append_assoc, List.append_assoc]
      exact (above_mem_segments_front hsegment _).trans (ih hrest)

/-- A request spelled in an odd way. -/
theorem confines_dots : "/srv" ≠ "" ∧ Confines "/srv" "//./a//b/?/../c" :=
  ⟨by decide, confines (by decide) _⟩

end DocumentRoot

end FileServer
