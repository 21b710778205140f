import ObjectFabric.Compliance.Residency
import ObjectFabric.Gateway.Get
import ObjectFabric.Streams.Separators

/-!
# RangeHeader — the `Range` header of a read

`parseHTTPRange` of `api/s3compat/handler.go` and the parsing of several ranges in
`api/s3compat/range_multipart.go`.
-/

namespace ObjectFabric

open Interleaving

structure HeaderLibrary where
  /-- `%q` -/
  quoted : String → String

/-- `strconv.ParseInt(s, 10, 64)` -/
def parseInt (lib : HeaderLibrary) (s : List Char) : Except String Int :=
  let signed : Bool × List Char :=
    match s with
    | '-' :: rest => (true, rest)
    | '+' :: rest => (false, rest)
    | rest => (false, rest)
  let n : Int := signed.2.foldl (fun n c => 10 * n + (c.toNat - '0'.toNat : Nat)) 0
  let failed (reason : String) : Except String Int :=
    .error ("strconv.ParseInt: parsing " ++ lib.quoted (String.ofList s) ++ ": " ++ reason)
  if signed.2 = [] ∨ !signed.2.all Char.isDigit then failed "invalid syntax"
  else if (if signed.1 then 2 ^ 63 < n else 2 ^ 63 ≤ n) then failed "value out of range"
  else .ok (if signed.1 then -n else n)

/-- One range, given as the text after `bytes=`. -/
def parseRangeSpec (lib : HeaderLibrary) (spec : List Char) (size : Int) :
    Except String ByteRange :=
  let header := lib.quoted (String.ofList ("bytes=".toList ++ spec))
  if ',' ∈ spec then
    .error "multi-range requests are not supported"
  else if '-' ∉ spec then
    .error ("invalid range header " ++ header)
  else
    match Streams.cut '-' spec with
    | ([], []) => .error ("invalid range header " ++ header)
    | ([], suffixText) =>
      match parseInt lib suffixText with
      | .error message => .error ("invalid suffix length: " ++ message)
      | .ok suffix =>
        if suffix < 0 then
          .error ("invalid range header " ++ header)
        else if min suffix size = 0 then
          .error ("unsatisfiable suffix range " ++ header ++ " for size " ++ toString size)
        else
          .ok ⟨size - min suffix size, size - 1⟩
    | (startText, endText) =>
      match parseInt lib startText with
      | .error message => .error ("invalid range start: " ++ message)
      | .ok start =>
        let parsed : Except String Int :=
          if endText = [] then .ok (-1)
          else
            match parseInt lib endText with
            | .error message => .error ("invalid range end: " ++ message)
            | .ok last => .ok (if size ≤ last then size - 1 else last)
        match parsed with
        | .error message => .error message
        | .ok last =>
          if start < 0 ∨ size ≤ start ∨ (0 ≤ last ∧ last < start) then
            .error ("invalid range [" ++ toString start ++ "," ++ toString last ++ "]")
          else
            .ok ⟨start, last⟩

def parseHTTPRange (lib : HeaderLibrary) (header : String) (size : Int) : Except String ByteRange :=
  if beginsWith header "bytes=" then parseRangeSpec lib (header.toList.drop 6) size
  else .error ("invalid range header " ++ lib.quoted header)

def resolveRangeEnd (r : ByteRange) (size : Int) : ByteRange :=
  if r.last < 0 ∨ size ≤ r.last then ⟨r.first, size - 1⟩ else r

/-- Empty segments are skipped; one that cannot be satisfied fails the whole header. -/
def parseHTTPRangeList (lib : HeaderLibrary) (header : String) (size : Int) :
    Except String (List ByteRange) :=
  if beginsWith header "bytes=" then
    let segments := (((header.toList.drop 6).splitOn ',').map trimUnicodeSpace).filter (· ≠ [])
    match segments.mapM fun seg => (parseRangeSpec lib seg size).map (resolveRangeEnd · size) with
    | .error message => .error message
    | .ok [] => .error ("no satisfiable ranges in " ++ lib.quoted header)
    | .ok ranges => .ok ranges
  else
    .error ("invalid range header " ++ lib.quoted header)

def maxObjectRanges : Nat := 100

/-- The sum is kept in an `int64`. -/
def sumRangeSizes (ranges : List ByteRange) : Int :=
  ranges.foldl (fun n r => ErasureCoding.wrap64 (n + (r.last - r.first + 1))) 0

/-- Too many ranges, or ranges of as many bytes as the object has, are answered with the whole
object. -/
def parseObjectRanges (lib : HeaderLibrary) (header : String) (size : Int) : Except String Ranges :=
  if header = "" then
    .ok .whole
  else if ',' ∉ header.toList then
    (parseHTTPRange lib header size).map .single
  else
    match parseHTTPRangeList lib header size with
    | .error message => .error message
    | .ok [] => .ok .whole
    | .ok [r] => .ok (.single r)
    | .ok (r :: rs) =>
      if maxObjectRanges < (r :: rs).length ∨ size ≤ sumRangeSizes (r :: rs) then .ok .whole
      else .ok (.multi r rs)

end ObjectFabric
