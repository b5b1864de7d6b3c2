import Brook.Streams.Labels
import Brook.Server.Routes

namespace Brook.Streams

/-! The m-lines of an offer, read from its text. -/

/-- Where `str.splitlines` splits, besides at "\r\n". -/
def isLineBreak (c : Char) : Bool :=
  let code := c.toNat
  (10 ≤ code && code ≤ 13) || (28 ≤ code && code ≤ 30) || code = 0x85 || code = 0x2028 ||
    code = 0x2029

/-- `str.splitlines`, with the line under way reversed in `line`; `afterReturn` tells that
the last break was a "\r". -/
def splitlinesFrom (line : List Char) (afterReturn : Bool) : List Char → List (List Char)
  | [] => if line = [] then [] else [line.reverse]
  | c :: rest =>
      if c = '\n' ∧ afterReturn then splitlinesFrom [] false rest
      else if isLineBreak c then line.reverse :: splitlinesFrom [] (c = '\r') rest
      else splitlinesFrom (c :: line) false rest

def splitlines (text : List Char) : List (List Char) := splitlinesFrom [] false text

/-- `str.strip` -/
def strip (line : List Char) : List Char :=
  ((line.dropWhile Server.isSpace).reverse.dropWhile Server.isSpace).reverse

/-- `str.split`, with the word under way reversed in `word`. -/
def splitFrom (word : List Char) : List Char → List (List Char)
  | [] => if word = [] then [] else [word.reverse]
  | c :: rest =>
      if Server.isSpace c then
        if word = [] then splitFrom [] rest else word.reverse :: splitFrom [] rest
      else splitFrom (c :: word) rest

def split (line : List Char) : List (List Char) := splitFrom [] line

/-- `_SOURCES` has the kinds audio and video. -/
def kindOf (word : List Char) : Option Kind :=
  if word = ['a', 'u', 'd', 'i', 'o'] then some .audio
  else if word = ['v', 'i', 'd', 'e', 'o'] then some .video
  else none

/-- The m-line under way. -/
structure Section where
  mid : Mid
  kind : Option Kind
  portZero : Bool
  bundleOnly : Bool
  sending : Bool

def Section.line (cur : Section) : MLine :=
  let parked := cur.portZero && !cur.bundleOnly
  ⟨cur.mid, cur.kind, cur.sending && !parked⟩

def flush (out : List MLine) : Option Section → List MLine
  | none => out
  | some cur => out ++ [cur.line]

def mediaPrefix : List Char := ['m', '=']
def midPrefix : List Char := ['a', '=', 'm', 'i', 'd', ':']

/-- One line of the text. -/
def readLine (read : List MLine × Option Section) (raw : List Char) :
    List MLine × Option Section :=
  let line := strip raw
  if mediaPrefix.isPrefixOf line then
    let out := flush read.1 read.2
    let parts := split (line.drop 2)
    let kind := (parts.head?.map kindOf).getD none
    let portZero := decide (parts[1]? = some ['0'])
    (out, some ⟨toString out.length, kind, portZero, false, true⟩)
  else
    match read.2 with
    | none => read
    | some cur =>
        if midPrefix.isPrefixOf line then
          (read.1, some { cur with mid := String.ofList (line.drop midPrefix.length) })
        else if line = "a=bundle-only".toList then
          (read.1, some { cur with bundleOnly := true })
        else if line = "a=inactive".toList ∨ line = "a=recvonly".toList then
          (read.1, some { cur with sending := false })
        else read

/-- `_parse_mlines` -/
def parseMLines (sdp : String) : List MLine :=
  let read := (splitlines sdp.toList).foldl readLine ([], none)
  flush read.1 read.2

example : parseMLines "v=0\r\nm=audio 9 UDP\r\na=mid:a\r\nm=video 0 UDP\r\na=bundle-only\r\n" =
    [⟨"a", some .audio, true⟩, ⟨"1", some .video, true⟩] := by decide +kernel

end Brook.Streams
