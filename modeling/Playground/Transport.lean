import Playground.Session

/-!
# Sessions over lines

A client writes its messages on lines and is answered on lines.  Lines without anything on them are
passed over.  Input that is not text counts as its end.  When the input ends after the update, or
the client cannot be written to, the session is cancelled.
-/

namespace Playground

open Playground.Bytes

/-- What comes from a client: its bytes, and whether they end. -/
structure Inbound where
  bytes : ByteArray
  /-- Whether nothing comes after the bytes. -/
  ends : Bool

namespace Inbound

/-- The octets up to each line feed, and those after the last. -/
def pieces : List UInt8 → List (List UInt8)
  | [] => [[]]
  | x :: xs =>
    if x = 10 then [] :: pieces xs
    else
      match pieces xs with
      | [] => [[x]]
      | piece :: rest => (x :: piece) :: rest

/-- The lines that come whole: all that a line feed ends, and what follows the last of them when
nothing comes after it. -/
def lines (inbound : Inbound) : List (List UInt8) :=
  let all := pieces (octets inbound.bytes)
  let last := all.getLast?.getD []
  all.dropLast ++ if inbound.ends && last ≠ [] then [last] else []

/-- The lines that are text, up to the first that is none, and whether there is such a line. -/
def texts : List (List UInt8) → List String × Bool
  | [] => ([], false)
  | line :: rest =>
    match Utf8.decode (ofOctets line) with
    | .error _ => ([], true)
    | .ok text =>
      let (texts, broken) := texts rest
      (text :: texts, broken)

/-- A line without the carriage return at its end. -/
def withoutReturn (line : String) : String := String.ofList (Text.dropReturn line.toList)

def messageLines (texts : List String) : List String :=
  (texts.map withoutReturn).filter fun line => Text.trim line.toList ≠ []

/-- What a session notices first. -/
def first (inbound : Inbound) : FirstLine :=
  let (texts, broken) := texts inbound.lines
  match messageLines texts with
  | line :: _ => .line line
  | [] => if inbound.ends || broken then .closed else .silent

/-- Whether the input ends. -/
def comesToEnd (inbound : Inbound) : Bool := inbound.ends || (texts inbound.lines).2

end Inbound

namespace Session

variable {σ η : Type}

/-- Serves a client over lines.  `broken` tells that the client cannot be written to. -/
def serveLines [Gzip.Encoder] (frontEnd : FrontEnd σ) (host : Host η)
    (settings : SessionSettings) (inbound : Inbound) (broken : Bool) (s : SessionState σ η) :
    Except SessionError SessionSummary × SessionState σ η :=
  let schedule :=
    { settings.schedule with
      interrupted := settings.schedule.interrupted || inbound.comesToEnd || broken }
  let client : Client := ⟨inbound.first, true⟩
  match run frontEnd host { settings with schedule } client s with
  | (result, s) =>
    if broken then
      (result.bind fun _ => .error (.protocol (.io "broken pipe")), { s with messages := [] })
    else (result, s)

/-- The lines that are written to a client. -/
def outboundText (messages : List Message) : String :=
  "".intercalate (messages.map fun m => m.text ++ "\n")

end Session

end Playground
