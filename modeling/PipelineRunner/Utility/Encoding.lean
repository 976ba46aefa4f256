import PipelineRunner.Text.Digest
import PipelineRunner.Utility.Files

/-!
Utilities that write bytes as text and read them from it, and that show and check digests of files.
-/

namespace PipelineRunner.Utility

open Host Text Job

def sixBits : List Char :=
  "ABCDEFGHIJKLMNOPQRSTUVWXYZabcdefghijklmnopqrstuvwxyz0123456789+/".toList

/-- The text for three bytes at a time. -/
def encodeSix : List Char → List Char
  | a :: b :: c :: rest =>
    let n := a.toNat * 65536 + b.toNat * 256 + c.toNat
    [n / 262144, n / 4096 % 64, n / 64 % 64, n % 64].map (sixBits.getD · '=') ++ encodeSix rest
  | [a, b] =>
    let n := a.toNat * 65536 + b.toNat * 256
    [n / 262144, n / 4096 % 64, n / 64 % 64].map (sixBits.getD · '=') ++ ['=']
  | [a] =>
    let n := a.toNat * 65536
    [n / 262144, n / 4096 % 64].map (sixBits.getD · '=') ++ ['=', '=']
  | [] => []

/-- The bytes of such a text, and whether it is one. -/
def decodeSix : Nat → List Char → List Char × Bool
  | 0, _ => ([], true)
  | _, [] => ([], true)
  | fuel + 1, cs =>
    let group := cs.take 4
    let values := group.takeWhile (· != '=')
    match values.mapM fun c => sixBits.idxOf? c with
    | none =>
      let good := values.takeWhile sixBits.contains
      if 2 ≤ good.length then (bytesOf (good.filterMap fun c => sixBits.idxOf? c), false)
      else ([], false)
    | some ns =>
      let isLast := values.length < 4
      if group.length < 4 || values.length < 2 || !(group.drop values.length).all (· == '=') then
        (bytesOf ns, false)
      else if isLast then (bytesOf ns, (cs.drop 4).isEmpty)
      else
        let (rest, ok) := decodeSix fuel (cs.drop 4)
        (bytesOf ns ++ rest, ok)
where
  /-- The bytes of up to four numbers of six bits. -/
  bytesOf (ns : List Nat) : List Char :=
    let n := (ns ++ List.replicate (4 - ns.length) 0).foldl (fun n d => n * 64 + d) 0
    ([n / 65536, n / 256 % 256, n % 256].map Char.ofNat).take (ns.length * 6 / 8)

def wrapped (width : Nat) (text : String) : String :=
  if width = 0 then text
  else
    let rec go : Nat → List Char → List Char
      | 0, _ => []
      | _, [] => []
      | fuel + 1, cs => cs.take width ++ '\n' :: go fuel (cs.drop width)
    String.ofList (go (text.length + 1) text.toList)

/-- Writes bytes as text, or reads them from it. -/
def base64 (args : List String) : Job Unit := do
  let known : List Known :=
    [.flag "d" "decode", .flag "i" "ignore-garbage", .value "w" "wrap"]
  let a ← arguments 1 known args
  allowOperands 1 1 a
  let width ← match a.last? "wrap" with
    | none => pure 76
    | some text =>
      match Text.digits? text.toList with
      | some n => pure n
      | none => fail 1 ("invalid wrap size: " ++ quoted text)
  let some text ← contentOf ⟨1, about, fun _ e => because "read error" e⟩
      (a.operands.headD "-")
    | pure ()
  if a.has "decode" then
    let cs := text.toList.filter fun c =>
      c != '\n' && (!a.has "ignore-garbage" || c == '=' || sixBits.contains c)
    let (bytes, ok) := decodeSix (cs.length + 1) cs
    print (String.ofList bytes)
    if !ok then
      fault 1 "invalid input"
  else print (wrapped width (String.ofList (encodeSix text.toList)))

def checkDigests (digest : List UInt8 → String) (quiet status : Bool) (name text : String) :
    Job Unit := do
  let isHex (c : Char) : Bool := c.isDigit || ('a' ≤ c.toLower && c.toLower ≤ 'f')
  let rows := (linesOf '\n' text).filterMap fun l =>
    let sum := l.text.toList.takeWhile isHex
    let rest := l.text.toList.drop sum.length
    if sum.length < 8 || rest.length < 3 then none
    else some (String.ofList (sum.map Char.toLower), String.ofList (rest.drop 2))
  if rows.isEmpty then
    fault 1 (asName name ++ ": no properly formatted checksum lines found")
  let bad ← collect (fun ((sum, file) : String × String) => do
    match ← contentOf (plainly 1) file with
    | none =>
      if !status then printLine (asName file ++ ": FAILED open or read")
      pure (0, 1)
    | some bytes =>
      let ok := digest (Bytes.toBytes bytes) = sum
      if !ok then atLeast 1
      if !status && !(ok && quiet) then
        printLine (file ++ (if ok then ": OK" else ": FAILED"))
      pure (if ok then 0 else 1, 0)) rows
  let failed : Nat := bad.foldl (fun n b => n + b.1) 0
  let missing : Nat := bad.foldl (fun n b => n + b.2) 0
  if 0 < missing && !status then
    let files := if missing = 1 then "listed file" else "listed files"
    warn s!"WARNING: {missing} {files} could not be read"
  if 0 < failed && !status then
    let sums := if failed = 1 then "checksum" else "checksums"
    warn s!"WARNING: {failed} computed {sums} did NOT match"

/-- Whether a name cannot stand in a line of its own as it is. -/
def needsEscapes (name : String) : Bool := name.toList.any fun c => c == '\\' || c == '\n'

/-- A name in which the characters that would break a line stand as escapes. -/
def lineName (name : String) : String :=
  String.ofList (name.toList.flatMap fun c =>
    if c = '\\' then ['\\', '\\'] else if c = '\n' then ['\\', 'n'] else [c])

/-- Shows the digests of files; `kind` is the name of the digest. -/
def digests (kind : String) (digest : List UInt8 → String) (args : List String) : Job Unit := do
  let known : List Known :=
    [.flag "b" "binary", .flag "c" "check", .flag "" "tag", .flag "t" "text", .flag "z" "zero",
      .flag "" "ignore-missing", .flag "" "quiet", .flag "" "status", .flag "" "strict",
      .flag "w" "warn"]
  let a ← arguments 1 known args
  each (fun name => do
    match ← contentOf (plainly 1) name with
    | none => pure ()
    | some text =>
      if a.has "check" then checkDigests digest (a.has "quiet") (a.has "status") name text
      else
        let sum := digest (Bytes.toBytes text)
        let ending := if a.has "zero" then String.singleton (Char.ofNat 0) else "\n"
        let escapes := needsEscapes name && !a.has "zero"
        let shown := if escapes then lineName name else name
        let mark := if (a.lastOf? ["binary", "text"]) = some "binary" then " *" else "  "
        print ((if escapes then "\\" else "") ++
          (if a.has "tag" then s!"{kind} ({shown}) = {sum}" else sum ++ mark ++ shown) ++ ending))
    (inputs a.operands)

/-- Shows the cyclic remainders and the sizes of files. -/
def cksum (args : List String) : Job Unit := do
  let known : List Known :=
    [.value "a" "algorithm", .flag "b" "binary", .flag "" "tag", .flag "t" "text",
      .flag "" "untagged", .flag "z" "zero", .flag "" "debug"]
  let a ← arguments 1 known args
  let named : Option (String × (List UInt8 → String)) := match a.last? "algorithm" with
    | some "md5" => some ("MD5", Digest.md5)
    | some "sha1" => some ("SHA1", Digest.sha1)
    | some "sha256" => some ("SHA256", Digest.sha256)
    | _ => none
  let ending := if a.has "zero" then String.singleton (Char.ofNat 0) else "\n"
  each (fun name => do
    match ← contentOf (plainly 1) name with
    | none => pure ()
    | some text =>
      let bytes := Bytes.toBytes text
      match named with
      | some (kind, digest) =>
        let sum := digest bytes
        print ((if a.has "untagged" then s!"{sum}  {name}" else s!"{kind} ({name}) = {sum}") ++
          ending)
      | none =>
        let sum := Digest.crc bytes
        let size := text.length
        print (s!"{sum} {size}" ++ (if a.operands.isEmpty then "" else " " ++ name) ++ ending))
    (inputs a.operands)

end PipelineRunner.Utility
