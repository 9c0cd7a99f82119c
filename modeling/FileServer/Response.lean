import FileServer.Bytes

/-!
# Responses

A request ends in one of five ways: its file is found, or one of four fixed pages is sent. The head
of a response gives the status, the exact length of what follows, and whether the connection stays;
so a client can tell where a response ends from the response alone.
-/

namespace FileServer

/-- How a request is answered. -/
inductive Resolution
  /-- with the content of a file -/
  | found (content : Bytes)
  /-- the request breaks a rule, or names a directory -/
  | badRequest
  /-- the file may not be read, or lies outside the document root -/
  | forbidden
  /-- there is no such file -/
  | notFound
  /-- the file could not be opened -/
  | internalError
  deriving DecidableEq, Repr

namespace Resolution

/-- The status code. -/
def status : Resolution → Nat
  | found _ => 200
  | badRequest => 400
  | forbidden => 403
  | notFound => 404
  | internalError => 500

/-- The wording of the status. -/
def title : Resolution → String
  | found _ => "OK"
  | badRequest => "Bad Request"
  | forbidden => "Forbidden"
  | notFound => "Not Found"
  | internalError => "Internal Error"

/-- The text of the page that is sent where there is no file. -/
def page : Resolution → String
  | found _ => ""
  | badRequest => "Your request has bad syntax or is inherently impossible to satisfy.\n"
  | forbidden => "You do not have permission to get file from this server.\n"
  | notFound => "The requested file was not found on this server.\n"
  | internalError => "There was an unusual problem serving the requested file.\n"

/-- The file to be sent. -/
def file? : Resolution → Option Bytes
  | found content => some content
  | _ => none

/-- All that is sent behind the headers. -/
def body (r : Resolution) : Bytes := (Bytes.ofText r.page) ++ r.file?.getD []

end Resolution

namespace Response

/-- The end of a line. -/
def lineEnd : Bytes := [carriageReturn, lineFeed]

/-- A number in decimal digits. -/
def decimal (n : Nat) : Bytes := Bytes.ofText (toString n)

/-- The first line of a response. -/
def statusLine (r : Resolution) : Bytes :=
  .ofText "HTTP/1.1 " ++ decimal r.status ++ .ofText " " ++ .ofText r.title

/-- What the `Connection` header says. -/
def connectionValue (keepAlive : Bool) : Bytes :=
  .ofText (if keepAlive then "keep-alive" else "close")

/-- The lines of a head. -/
def headLines (r : Resolution) (keepAlive : Bool) : List Bytes :=
  [statusLine r,
    .ofText "Content-Length: " ++ decimal r.body.length,
    .ofText "Content-Type: text/html",
    .ofText "Connection: " ++ connectionValue keepAlive]

/-- The head of a response: its lines, and an empty line. -/
def head (r : Resolution) (keepAlive : Bool) : Bytes :=
  (headLines r keepAlive).flatMap (· ++ lineEnd) ++ lineEnd

end Response

end FileServer
