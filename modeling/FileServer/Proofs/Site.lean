import FileServer.DocumentRoot

/-!
# Sites that differ in hidden files

A file that others may not read is hidden. Two sites are alike if they differ in nothing but what is
in their hidden files (`Site.Alike`). Following a path looks at names, kinds, modes and links only,
so it leads to the same place on both (`Site.Alike.walk`); and what is found there is opened only
after its mode has been looked at, so a request comes to the same answer
(`DocumentRoot.lookUp_alike`), with the same file if one is sent, and waits for the same named pipe
(`DocumentRoot.awaitedPipe?_alike`).
-/

namespace FileServer

/-- Two entries that are the same, or two files with the same mode that others may not read. Their
contents may differ in length as well. -/
inductive Entry.Alike : Entry → Entry → Prop
  | same (e : Entry) : Alike e e
  | hidden {mode : Nat} (content content' : Bytes) : allows mode othersRead = false →
    Alike (.file mode content) (.file mode content')

theorem Entry.Alike.mode {e e' : Entry} (h : e.Alike e') : e'.mode = e.mode := by
  cases h with
  | same => rfl
  | hidden => rfl

namespace Site

/-- Two sites that differ in nothing but what is in their hidden files. -/
def Alike (a b : Site) : Prop := ∀ place, Option.Rel Entry.Alike (a.at? place) (b.at? place)

/-- What following a path came to on two sites: the same failure, or the same place and entries that
are alike. -/
inductive Found : Except Errno (List String × Entry) → Except Errno (List String × Entry) → Prop
  | error (reason : Errno) : Found (.error reason) (.error reason)
  | ok (place : List String) {e e' : Entry} : e.Alike e' → Found (.ok (place, e)) (.ok (place, e'))

namespace Alike

variable {a b : Site}

/-- A site differs from itself in nothing. -/
theorem refl (a : Site) : a.Alike a := by
  intro place
  cases a.at? place with
  | none => exact .none
  | some e => exact .some (.same e)

/-- What is put into a hidden file makes no difference. -/
theorem put_hidden {mode : Nat} (hmode : allows mode othersRead = false) (h : a.Alike b)
    (place : List String) (content content' : Bytes) :
    (a.put place (.file mode content)).Alike (b.put place (.file mode content')) := by
  intro q
  unfold put at?
  rw [List.lookup_cons, List.lookup_cons]
  split
  · exact .some (.hidden content content' hmode)
  · exact h q

/-- Following the segments of a path asks of each place whether there is a directory or a link,
and a hidden file is neither. The induction is on the segments. -/
theorem along (h : a.Alike b) (follow : List String → List String → Except Errno (List String))
    (place segments : List String) :
    b.along follow place segments = a.along follow place segments := by
  induction segments generalizing place with
  | nil => rfl
  | cons segment rest ih =>
    have hfrom := h place
    have hto := h (place ++ [segment])
    rw [Site.along, Site.along]
    simp only [ih]
    generalize a.at? place = e, b.at? place = e' at hfrom ⊢
    generalize a.at? (place ++ [segment]) = f, b.at? (place ++ [segment]) = f' at hto ⊢
    cases hfrom with
    | none => rfl
    | some hentry =>
      cases hentry with
      | hidden => rfl
      | same =>
        -- where the path goes on does not depend on what is in a file there
        cases hto with
        | none => rfl
        | some hnext =>
          cases hnext with
          | same => rfl
          | hidden => rfl

/-- A path leads to the same place. -/
theorem walk (h : a.Alike b) (links : Nat) : b.walk links = a.walk links := by
  induction links with
  | zero => exact funext fun place => funext fun segments => h.along _ place segments
  | succ links ih =>
    funext place segments
    rw [Site.walk, Site.walk, ih]
    exact h.along _ place segments

/-- What stands at the end of a path is found on both sites or on neither, in the same place. -/
theorem find (h : a.Alike b) (path : String) : Found (a.find path) (b.find path) := by
  unfold Site.find
  simp only [h.walk]
  split
  · exact .error _
  split
  · exact .error _
  split
  · exact .error _
  cases a.walk maxLinks [] (split path) with
  | error reason => exact .error reason
  | ok place =>
    have hplace := h place
    dsimp only [bind, Except.bind]
    generalize a.at? place = e, b.at? place = e' at hplace
    cases hplace with
    | none => exact .error _
    | some hentry => exact .ok place hentry

end Alike

end Site

namespace DocumentRoot

variable {a b : Site}

/-- **A hidden file is not looked into.** A request comes to the same answer or the same file:
where the entries differ, their mode has the request refused before either of them is opened. -/
theorem lookUp_alike (h : a.Alike b) (root url : String) :
    lookUp b root url = lookUp a root url := by
  rw [lookUp, lookUp]
  cases resolve root url with
  | none => rfl
  | some path =>
    dsimp only
    have hfound := h.find path
    generalize a.find path = x, b.find path = y at hfound
    cases hfound with
    | error reason => rfl
    | ok place hentry =>
      cases hentry with
      | same => rfl
      | hidden content content' hmode => simp [Entry.mode, hmode]

/-- A request waits for the same named pipe. -/
theorem awaitedPipe?_alike (h : a.Alike b) (root url : String) :
    awaitedPipe? b root url = awaitedPipe? a root url := by
  rw [awaitedPipe?, awaitedPipe?]
  cases resolve root url with
  | none => rfl
  | some path =>
    have hfound := h.find path
    rw [Option.map_some, Option.map_some]
    generalize a.find path = x, b.find path = y at hfound
    cases hfound with
    | error reason => rfl
    | ok place hentry =>
      cases hentry with
      | same => rfl
      | hidden => rfl

end DocumentRoot

end FileServer
