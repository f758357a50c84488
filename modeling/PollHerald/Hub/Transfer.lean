import PollHerald.Hub.Headers
import PollHerald.Hub.Request
import PollHerald.Hex
import PollHerald.Text.Decode
import PollHerald.Width

set_option autoImplicit false

/-! How requests and answers travel: the address of a hub, the bytes of a request to it, and the
answer that bytes from it stand for. Every request has a connection of its own, so that an answer
ends where its connection ends, if not before. -/

namespace PollHerald.Hub

structure Address where
  host : String
  port : Nat
  base : String
  deriving DecidableEq, Repr

namespace Address

def trimEndpoint (endpoint : List Char) : List Char :=
  (endpoint.reverse.dropWhile (· == '/')).reverse

/-- Reads the address of a hub. There is none where the endpoint is not of the form
`http://host:port/path`, of which port and path may be missing. -/
def ofEndpoint? (endpoint : String) : Option Address :=
  match trimEndpoint endpoint.toList with
  | 'h' :: 't' :: 't' :: 'p' :: ':' :: '/' :: '/' :: rest =>
    let authority := rest.takeWhile (· ≠ '/')
    let host := String.ofList (authority.takeWhile (· ≠ ':'))
    let base := String.ofList (rest.dropWhile (· ≠ '/'))
    let port := match authority.dropWhile (· ≠ ':') with
      | [] => some 80
      | _ :: digits => (String.ofList digits).toNat?
    if host.isEmpty then none
    else
      match port with
      | some port => if port < Width.bound16 then some { host, port, base } else none
      | none => none
  | _ => none

end Address

namespace Request

/-- The headers that a request has by itself. They win over those that ride on every request. -/
def ownHeaders (address : Address) (request : Request) : Headers :=
  [("host", address.host ++ ":" ++ toString address.port), ("connection", "close")] ++
    match request.body? with
    | none => []
    | some body =>
      [("content-type", "application/octet-stream"), ("content-length", toString body.length)]

def bytes (address : Address) (headers : Headers) (request : Request) : List UInt8 :=
  let own := request.ownHeaders address
  let others := headers.filter fun header => (own.lookup header.1).isNone
  let method := if request.body?.isSome then "POST " else "GET "
  let lines := (own ++ others).map fun (name, value) => name ++ ": " ++ value ++ "\r\n"
  let head := method ++ request.target address.base ++ " HTTP/1.1\r\n" ++
    String.join lines ++ "\r\n"
  Text.utf8 head ++ request.body?.getD []

end Request

namespace Answer

def splitHead : List UInt8 → Option (List UInt8 × List UInt8)
  | 13 :: 10 :: 13 :: 10 :: body => some ([], body)
  | byte :: rest => (splitHead rest).map fun (head, body) => (byte :: head, body)
  | [] => none

def splitLine : List UInt8 → Option (List UInt8 × List UInt8)
  | 13 :: 10 :: rest => some ([], rest)
  | byte :: rest => (splitLine rest).map fun (line, rest) => (byte :: line, rest)
  | [] => none

def readSize (digits : List UInt8) : Nat :=
  (digits.map Hex.digitValue?).takeWhile Option.isSome |>.foldl
    (fun size digit => size * 16 + (digit.getD 0).toNat) 0

def joinChunks : Nat → List UInt8 → Option (List UInt8)
  | 0, _ => none
  | bound + 1, bytes => do
    let (line, rest) ← splitLine bytes
    let size := readSize line
    if size = 0 then
      return []
    else if rest.length < size + 2 then
      none
    else
      return rest.take size ++ (← joinChunks bound (rest.drop (size + 2)))

def header? (line : String) : Option (String × String) :=
  match line.splitOn ":" with
  | name :: value :: more =>
    some (Headers.lowerName name, (String.intercalate ":" (value :: more)).trimAscii.toString)
  | _ => none

/-- The body that the headers announce. There is none where the connection ended inside it. -/
def body? (headers : Headers) (bytes : List UInt8) : Option (List UInt8) :=
  if headers.lookup "transfer-encoding" = some "chunked" then
    joinChunks (bytes.length + 1) bytes
  else
    match (headers.lookup "content-length").bind String.toNat? with
    | some length => if bytes.length < length then none else some (bytes.take length)
    | none => some bytes

def ofBytes (bytes : List UInt8) : Answer :=
  match splitHead bytes with
  | none => .broken
  | some (head, rest) =>
    match (Text.decode head).splitOn "\r\n" with
    | [] => .broken
    | first :: lines =>
      match (first.splitOn " ")[1]?.bind String.toNat? with
      | none => .broken
      | some status =>
        .response status ((body? (lines.filterMap header?) rest).map Text.decode)

end Answer

end PollHerald.Hub
