import FileServer.Bytes
import FileServer.Path
import FileServer.Kernel.Errno

/-!
# Sites

A site is a tree of files, directories, links, sockets and pipes with names, each with its
permission bits. It is kept flat: every entry stands under the names that lead to it from the top.
`Site.find` follows a path as the kernel does, for a process that owns everything but has no rights
beyond that: a directory can be passed through only if its owner may search it, and links are
followed up to a limit.
-/

namespace FileServer

/-- What stands under a name. -/
inductive Entry
  | file (mode : Nat) (content : Bytes)
  | directory (mode : Nat)
  /-- leads to another path, relative to the directory of the link -/
  | link (path : String)
  /-- a local socket, which cannot be opened -/
  | socket (mode : Nat)
  /-- a named pipe, which can be opened only when there is a writer -/
  | pipe (mode : Nat)
  deriving DecidableEq, Repr, Inhabited

/-- The permission bits of an entry; a link allows everything. -/
def Entry.mode : Entry → Nat
  | file mode _ | directory mode | socket mode | pipe mode => mode
  | link _ => 0o777

/-- The bit by which others may read. -/
def othersRead : Nat := 0o004

/-- The bit by which the owner may read. -/
def ownerRead : Nat := 0o400

/-- The bit by which the owner may add to a directory. -/
def ownerWrite : Nat := 0o200

/-- The bit by which the owner may pass through a directory. -/
def ownerSearch : Nat := 0o100

/-- Whether a permission bit is set. -/
def allows (mode bit : Nat) : Bool := mode &&& bit != 0

/-- A tree of entries, each under the names that lead to it. -/
structure Site where
  /-- the entries, of which the first under a place counts -/
  entries : List (List String × Entry)
  deriving DecidableEq, Repr, Inhabited

namespace Site

/-- A tree that holds nothing but its top directory. -/
def empty : Site := ⟨[([], .directory 0o755)]⟩

/-- What stands at a place. -/
def at? (site : Site) (place : List String) : Option Entry := site.entries.lookup place

/-- Puts an entry at a place. -/
def put (site : Site) (place : List String) (entry : Entry) : Site :=
  ⟨(place, entry) :: site.entries⟩

/-! ## Following a path -/

/-- The most links that are followed for one path. -/
def maxLinks : Nat := 40

/-- The most bytes of one name. -/
def maxNameBytes : Nat := 255

/-- The most bytes of a path. -/
def maxPathBytes : Nat := 4095

/-- The texts between the slashes of a path. -/
def split (path : String) : List String := (Path.segments path.toList).map .ofList

/-- Goes on from `place` along the segments of a path, up to a link, from where it is gone on by
`follow`. A place from which the path goes on has to be a directory; to go anywhere from it, the
owner has to be allowed to search it. -/
def along (site : Site) (follow : List String → List String → Except Errno (List String))
    (place : List String) : List String → Except Errno (List String)
  | [] => .ok place
  | segment :: rest =>
    match site.at? place with
    | some (.directory mode) =>
      if segment = "" then along site follow place rest
      else if !allows mode ownerSearch then .error .accessDenied
      else if segment = "." then along site follow place rest
      else if segment = ".." then along site follow place.dropLast rest
      else if maxNameBytes < segment.utf8ByteSize then .error .nameTooLong
      else
        match site.at? (place ++ [segment]) with
        | none => .error .noEntry
        | some (.link path) =>
          follow (if path.startsWith "/" then [] else place) (split path ++ rest)
        | some _ => along site follow (place ++ [segment]) rest
    | _ => .error .notDirectory

/-- Goes on from `place` along the segments of a path, and along the links on the way, up to so
many. -/
def walk (site : Site) : (links : Nat) → (place segments : List String) → Except Errno (List String)
  | 0 => site.along fun _ _ => .error .tooManyLinks
  | links + 1 => site.along (walk site links)

/-- The place that a path from the top leads to, and what stands there. -/
def find (site : Site) (path : String) : Except Errno (List String × Entry) := do
  if path.isEmpty then throw .noEntry
  if path.toList.contains '\x00' then throw .invalid
  if maxPathBytes < path.utf8ByteSize then throw .nameTooLong
  let place ← site.walk maxLinks [] (split path)
  match site.at? place with
  | some entry => return (place, entry)
  | none => throw .noEntry

/-! ## Building a tree -/

/-- Whether the owner may add something to a directory. -/
def mayAdd (site : Site) (place : List String) : Bool :=
  match site.at? place with
  | some (.directory mode) => allows mode ownerWrite && allows mode ownerSearch
  | _ => false

/-- The place of a directory on the way to an entry. It is made if there is none. -/
def enter? (site : Site) (place : List String) (name : String) : Option (Site × List String) :=
  match site.walk maxLinks place [name] with
  | .ok inner => some (site, inner)
  | .error _ =>
    if (site.at? (place ++ [name])).isNone && site.mayAdd place then
      some (site.put (place ++ [name]) (.directory 0o755), place ++ [name])
    else none

/-- Whether an entry can be put where there is another: a file that may be written is written anew,
and a directory gets other permission bits. -/
def replaces : (new old : Entry) → Bool
  | .file .., .file mode _ => allows mode ownerWrite
  | .directory _, .directory _ => true
  | _, _ => false

/-- Puts an entry at a place where there is one. -/
def replace? (site : Site) (place : List String) (entry : Entry) : Option Site :=
  if (site.at? place).any (replaces entry) then some (site.put place entry) else none

/-- Puts an entry beneath a place, under a path of names; `none` if it cannot be put there. -/
def add (site : Site) (place : List String) (path : String) (entry : Entry) : Option Site := do
  let names := (Path.names path.toList).map String.ofList
  let (site, place) ← names.dropLast.foldlM (fun (site, place) name => site.enter? place name)
    (site, place)
  match names.getLast? with
  | none => site.replace? place entry
  | some name =>
    if (site.at? (place ++ [name])).isNone then
      if site.mayAdd place then return site.put (place ++ [name]) entry else none
    else site.replace? (← (site.walk maxLinks place [name]).toOption) entry

end Site

end FileServer
