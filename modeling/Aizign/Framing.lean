import Aizign.Envelope

/-!
# Process framing

The three framers of the process profile: the byte loop the child runs over its
standard input, the whole-buffer function and the chunked collector the parent
runs over the child's output. One non-empty body, a line feed, and the end.
-/

namespace Aizign

def lineFeed : UInt8 := 0x0a
def carriageReturn : UInt8 := 0x0d

/-! ## The child -/

inductive Stdin
  | frame (frame : Bytes)
  | invalid
  | tooLarge
  deriving DecidableEq

structure StdinState where
  frame : Bytes
  newlineSeen : Bool
  deriving DecidableEq

/-- One byte of the read buffer; an error is an early return. -/
def stdinByte (s : StdinState) (byte : UInt8) : Except Stdin StdinState :=
  if s.newlineSeen then .error .invalid
  else if byte = lineFeed then
    if s.frame.isEmpty ∨ s.frame.getLast? = some carriageReturn then .error .invalid
    else .ok { s with newlineSeen := true }
  else if s.frame.length = maxRequestBytes then .error .tooLarge
  else .ok { s with frame := s.frame ++ [byte] }

/-- The loop over the reads; a read of no bytes is the end of the stream. -/
def readLoop (s : StdinState) : List Bytes → Stdin
  | [] => if s.newlineSeen then .frame s.frame else .invalid
  | read :: reads =>
    if read.isEmpty then if s.newlineSeen then .frame s.frame else .invalid
    else
      match read.foldlM stdinByte s with
      | .error result => result
      | .ok s => readLoop s reads

def readStdin (reads : List Bytes) : Stdin := readLoop ⟨[], false⟩ reads

/-! ## The parent -/

inductive FrameExtraction
  | frame (frame : Bytes)
  | empty
  | extra (detail : Text)
  | oversized (detail : Text)
  deriving DecidableEq

/-- `Uint8Array.prototype.indexOf`. -/
def indexOfByte (byte : UInt8) (bytes : Bytes) : Option Nat := bytes.findIdx? (· == byte)

def extractFrame (bytes : Bytes) : FrameExtraction :=
  match indexOfByte lineFeed bytes with
  | none => if bytes.length = 0 then .empty else .extra "frame is not LF-terminated".toList
  | some newline =>
    let frame := bytes.take newline
    let rest := bytes.drop (newline + 1)
    if frame.length = 0 then .empty
    else if frame.getLast? = some carriageReturn then
      .extra "CRLF is not a valid process-profile terminator".toList
    else if 0 < rest.length then .extra "a byte followed the terminating LF".toList
    else .frame frame

structure FrameCollector where
  maxFrameBytes : Nat
  chunks : List Bytes
  frameBytes : Nat
  newlineSeen : Bool
  oversized : Bool
  invalidProfile : Bool
  deriving DecidableEq

namespace FrameCollector

def new (maxFrameBytes : Nat) : FrameCollector := ⟨maxFrameBytes, [], 0, false, false, false⟩

def after (c : FrameCollector) (rest : Bytes) : Bool × FrameCollector :=
  (true, { c with invalidProfile := c.invalidProfile || decide (0 < rest.length) })

def append (c : FrameCollector) (chunk : Bytes) : Bool × FrameCollector :=
  if c.oversized then (false, c)
  else if c.newlineSeen then c.after chunk
  else
    let newline := indexOfByte lineFeed chunk
    let frameEnd := newline.getD chunk.length
    if c.maxFrameBytes < c.frameBytes + frameEnd then (false, { c with oversized := true })
    else
      let c := if 0 < frameEnd then
          { c with chunks := c.chunks ++ [chunk.take frameEnd], frameBytes := c.frameBytes + frameEnd }
        else c
      match newline with
      | none => (true, c)
      | some newline => { c with newlineSeen := true }.after (chunk.drop (newline + 1))

/-- `Uint8Array.prototype.set`. -/
def setBytes (bytes : Bytes) (offset : Nat) (chunk : Bytes) : Bytes :=
  bytes.take offset ++ chunk ++ bytes.drop (offset + chunk.length)

def copyChunks (frame : Bytes) (offset : Nat) : List Bytes → Bytes
  | [] => frame
  | chunk :: chunks => copyChunks (setBytes frame offset chunk) (offset + chunk.length) chunks

def extract (c : FrameCollector) : FrameExtraction :=
  if c.oversized then .oversized ("frame exceeds ".toList ++ decimal c.maxFrameBytes ++ " bytes".toList)
  else
    let frame := copyChunks (List.replicate c.frameBytes 0) 0 c.chunks
    if !c.newlineSeen then
      if frame.length = 0 then .empty else .extra "frame is not LF-terminated".toList
    else if frame.length = 0 then .empty
    else if frame.getLast? = some carriageReturn then
      .extra "CRLF is not a valid process-profile terminator".toList
    else if c.invalidProfile then .extra "a byte followed the terminating LF".toList
    else .frame frame

/-- The collector after the chunks of a stream, whatever each call answered. -/
def collect (c : FrameCollector) (chunks : List Bytes) : FrameCollector :=
  chunks.foldl (fun c chunk => (c.append chunk).2) c

end FrameCollector

end Aizign
