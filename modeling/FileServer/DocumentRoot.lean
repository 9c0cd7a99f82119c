import FileServer.Kernel.Fault
import FileServer.Response
import FileServer.Site

/-!
# The document root

A server publishes what lies beneath one directory. The path of a request, without its query and
fragment, is taken relative to that directory, however many slashes it starts with; a path that
leads upwards anywhere is refused. What is found there is sent only if it is a file that others may
read.
-/

namespace FileServer.DocumentRoot

/-- A request's path without query and fragment. -/
def pathPart (url : List Char) : List Char := url.takeWhile fun c => c ≠ '?' ∧ c ≠ '#'

/-- A request's path relative to the document root. -/
def relative (url : List Char) : List Char := (pathPart url).dropWhile (· = '/')

/-- Where a request's path leads beneath a document root, unless it leads upwards somewhere. -/
def resolve (root url : String) : Option String :=
  let path := relative url.toList
  if Path.climbs path then none else some (.ofList (Path.join root.toList path))

/-- Opens what stands at a place, for a process that may do what its owner may. The content of a
named pipe that has a writer is empty. -/
def openEntry : Entry → Option Bytes
  | .file mode content => if allows mode ownerRead then some content else none
  | .pipe mode => if allows mode ownerRead then some [] else none
  | _ => none

/-- The file that a request for a path leads to, opened, or the answer if there is none to be
sent. -/
def lookUp (site : Site) (root url : String) : Except Resolution Bytes :=
  match resolve root url with
  | none => .error .forbidden
  | some path =>
    match site.find path with
    | .error _ => .error .notFound
    | .ok (_, entry) =>
      if !allows entry.mode othersRead then .error .forbidden
      else
        match entry with
        | .directory _ => .error .badRequest
        | _ =>
          match openEntry entry with
          | some content => .ok content
          | none => .error .internalError

/-- Maps an open file under a script for the coming calls. An empty file needs no call. -/
def mapContent : Bytes → Script → Resolution × Script
  | [], maps => (.found [], maps)
  | _, some (.fail _) :: rest => (.internalError, rest)
  | content, maps => (.found content, maps.tail)

/-- The answer to a request for what stands beneath a document root. -/
def locate (site : Site) (root url : String) (maps : Script) : Resolution × Script :=
  match lookUp site root url with
  | .error r => (r, maps)
  | .ok content => mapContent content maps

/-- The named pipe that a request for a path has to open, if there is one: opening it waits for a
writer. -/
def awaitedPipe? (site : Site) (root url : String) : Option (List String) :=
  match (resolve root url).map site.find with
  | some (.ok (place, .pipe mode)) =>
    if allows mode othersRead && allows mode ownerRead then some place else none
  | _ => none

end FileServer.DocumentRoot
