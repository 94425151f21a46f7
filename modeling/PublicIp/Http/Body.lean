import PublicIp.Coding.Gzip
import PublicIp.Http.Head
import PublicIp.Text.Blank
import PublicIp.Text.Symbols

/-!
# Bodies of replies

A body follows the head of a reply, and the head tells where it ends: its size is given, it comes in
chunks, or it goes on until the connection is closed. The head also tells whether the body is packed,
and whether it is meant to be read by people, in which case stray bytes in it do not matter.
-/

namespace PublicIp.Http

/-- The first line and what follows it, if a carriage return and a line feed end it. -/
def strictLine? (bytes : List UInt8) : Option (List UInt8 × List UInt8) :=
  match bytes.dropWhile (· ≠ 13) with
  | _ :: 10 :: rest => some (bytes.takeWhile (· ≠ 13), rest)
  | _ => none

theorem strictLine?_length {bytes line rest : List UInt8}
    (h : strictLine? bytes = some (line, rest)) : rest.length < bytes.length := by
  have bound := (List.dropWhile_suffix (l := bytes) (· ≠ 13)).length_le
  unfold strictLine? at h
  split at h
  · rename_i found
    simp only [Option.some.injEq, Prod.mk.injEq] at h
    rw [found, h.2] at bound
    simp only [List.length_cons] at bound
    omega
  · simp at h

/-- The most bytes of the line with the size of a chunk. -/
def maxChunkLine : Nat := 20

/-- The size of a chunk from its line, in which it may stand between blanks. What follows a semicolon
does not matter. -/
def chunkSize? (line : List UInt8) : Option Nat :=
  if line.length ≤ maxChunkLine then
    (String.fromUTF8? ⟨(line.takeWhile (· ≠ 59)).toArray⟩).bind fun size =>
      Text.whole? 16 (Text.trimmed size.toList)
  else none

/-- Whether there are whole lines up to an empty one or up to the end. -/
def areLines (bytes : List UInt8) : Bool :=
  match _ : strictLine? bytes with
  | none => bytes.isEmpty
  | some ([], _) => true
  | some (_, rest) => areLines rest
termination_by bytes.length
decreasing_by exact strictLine?_length ‹_›

/-- What chunks hold. Each is a line with its size, as many bytes, and the end of a line; the last one
has no bytes, and other lines follow it. -/
def chunks? (bytes : List UInt8) : Option (List UInt8) :=
  match _ : strictLine? bytes with
  | none => none
  | some (line, rest) =>
    match chunkSize? line with
    | none => none
    | some 0 => if areLines rest then some [] else none
    | some size =>
      match _ : rest.drop size with
      | 13 :: 10 :: later => (chunks? later).map (rest.take size ++ ·)
      | _ => none
termination_by bytes.length
decreasing_by
  have shorter := strictLine?_length ‹_›
  have dropped := congrArg List.length ‹List.drop _ _ = _›
  simp only [List.length_drop, List.length_cons] at dropped
  omega

/-- What tells where a body ends. -/
inductive Framing
  | chunks
  | sized (size : Nat)
  | untilClose
  deriving DecidableEq, Repr

def Framing.body? : Framing → List UInt8 → Option (List UInt8)
  | .chunks, bytes => chunks? bytes
  | .sized size, bytes => if size ≤ bytes.length then some (bytes.take size) else none
  | .untilClose, bytes => some bytes

namespace Response.Head

/-- Whether the body comes in chunks. -/
def isChunked (head : Head) : Bool :=
  head.knowsChunks && ((head.values "transfer-encoding").filter isVisible).any fun codings =>
    (listItems codings).any fun coding => lowerCase coding = "chunked"

/-- A size as it is given in a header field. -/
def size? (text : String) : Option Nat := (Text.natural? 10 text.toList).filter (· < UInt64.size)

/-- How the body of a reply ends. A size may be given more than once if it is the same each time, and
it is checked even where the body comes in chunks. -/
def framing? (head : Head) : Option Framing :=
  (((head.values "content-length").flatMap listItems).mapM size?).bind fun
    | [] => some (if head.isChunked then .chunks else .untilClose)
    | size :: others =>
      if others.all (· = size) then some (if head.isChunked then .chunks else .sized size) else none

/-- What a body stands for that may be packed. -/
def unpacked? (head : Head) (body : List UInt8) : Option (List UInt8) :=
  if head.visible? "content-encoding" = some "gzip" then Coding.Gzip.unpack? body else some body

/-- Whether a body is meant to be read by people. -/
def isPlain (head : Head) : Bool :=
  (head.visible? "content-type").any fun type => "text/".toList.isPrefixOf type.toList

/-- The body of a reply from what follows its head. -/
def body? (head : Head) (rest : List UInt8) : Option ByteArray := do
  let framing ← head.framing?
  let packed ← if isBodiless head.status then some [] else framing.body? rest
  if replyLimit ≤ packed.length then none
  let content ← head.unpacked? packed
  let bytes : ByteArray := ⟨content.toArray⟩
  return if head.isPlain then (Text.mended bytes).toUTF8 else bytes

end Response.Head

end PublicIp.Http
