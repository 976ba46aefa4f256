import PipelineRunner.Utility.Files

/-!
A utility that copies bytes in blocks, and changes them on the way.
-/

namespace PipelineRunner.Utility

open Host Text Job

/-- How bytes are copied in blocks. -/
structure Copying where
  input : Option String := none
  output : Option String := none
  inputBlock : Nat := 512
  outputBlock : Nat := 512
  /-- Whether every block that is read is written as it is, whatever its size. -/
  isDirect : Bool := false
  count : Option Nat := none
  skip : Nat := 0
  seek : Nat := 0
  conversions : List String := []
  status : String := ""

/-- The number of bytes that factors with an x between them make. -/
def product? (text : String) : Option Nat :=
  ((Text.splitAt 'x' text.toList).mapM fun cs => byteCount? (String.ofList cs)).map
    (·.foldl (· * ·) 1)

/-- The ways of changing bytes that are known, and those of opening files. -/
def conversionNames : List String :=
  ["ascii", "ebcdic", "ibm", "block", "unblock", "lcase", "ucase", "sparse", "swab", "sync", "excl",
    "nocreat", "notrunc", "noerror", "fdatasync", "fsync"]

/-- Reads operands. A complaint has no more to it, or points to the help. -/
def Copying.read (c : Copying) : List String → Except (String × Bool) Copying
  | [] => .ok c
  | arg :: rest => do
    let name := String.ofList (arg.toList.takeWhile (· != '='))
    let value := Bytes.drop (name.length + 1) arg
    let unknown := ("unrecognized operand " ++ inShellQuotes arg, true)
    if name.length = arg.length then throw unknown
    let number : Except (String × Bool) Nat := match product? value with
      | some n => .ok n
      | none => .error ("invalid number: " ++ inShellQuotes value, false)
    let size : Except (String × Bool) Nat := do
      let n ← number
      if n = 0 then throw ("invalid number: " ++ inShellQuotes value, false)
      pure n
    let c ← match name with
      | "if" => pure { c with input := some value }
      | "of" => pure { c with output := some value }
      | "bs" => do
        let n ← size
        pure { c with inputBlock := n, outputBlock := n, isDirect := true }
      | "ibs" => do pure { c with inputBlock := ← size }
      | "obs" => do pure { c with outputBlock := ← size }
      | "count" => do pure { c with count := some (← number) }
      | "skip" | "iseek" => do pure { c with skip := ← number }
      | "seek" | "oseek" => do pure { c with seek := ← number }
      | "conv" => do
        let names := (Text.splitAt ',' value.toList).map String.ofList
        match names.find? fun n => !conversionNames.contains n with
        | some n => throw ("invalid conversion: " ++ inShellQuotes n, true)
        | none => pure { c with conversions := c.conversions ++ names }
      | "status" => pure { c with status := value }
      | "iflag" | "oflag" | "cbs" => pure c
      | _ => throw unknown
    read c rest

/-- What has been copied: blocks that were full or not, and bytes. -/
structure Copied where
  whole : Nat := 0
  part : Nat := 0
  bytes : Nat := 0
  /-- A byte that waits for the other of its pair. -/
  left : List Char := []

/-- Turns every pair of bytes round; one may be left. -/
def swapPairs : List Char → List Char × List Char
  | a :: b :: cs =>
    let (turned, left) := swapPairs cs
    (b :: a :: turned, left)
  | left => ([], left)

def dd (args : List String) : Job Unit := do
  match ({} : Copying).read args with
  | .error (text, isMisuse) => if isMisuse then misuse 1 text else fail 1 text
  | .ok c =>
    let openFailed (name : String) (e : FileError) : Job Unit :=
      fail 1 (because ("failed to open " ++ inShellQuotes name) e)
    match c.input with
    | none => pure ()
    | some name =>
      match ← act (Act.openFile name .read) with
      | .ok d => let _ : Except FileError Unit ← ask (.copy d 0)
      | .error e => openFailed name e
    match c.output with
    | none => pure ()
    | some name =>
      let keeps := c.conversions.contains "notrunc" || c.seek != 0
      let mode : OpenMode := if keeps then .overwrite else .write
      let opened ← do
        match ← act (Act.openFile name mode) with
        | .error .notFound => act (Act.openFile name .write)
        | r => pure r
      match opened with
      | .ok d => let _ : Except FileError Unit ← ask (.copy d 1)
      | .error e => openFailed name e
    if c.skip != 0 then
      let _ ← iterate (fun (left : Nat) => do
        if left = 0 then pure (.done ())
        else
          match ← act (Act.read 0 (Nat.min left Act.blockSize)) with
          | .ok bytes => pure (if bytes.isEmpty then .done () else .again (left - bytes.length))
          | .error _ => pure (.done ())) (c.skip * c.inputBlock)
    if c.seek != 0 then
      let moved : Except FileError Nat ← ask (.seek 1 (c.seek * c.outputBlock : Nat) .start)
      match moved with
      | .error e =>
        fail 1 (because (inShellQuotes (c.output.getD "standard output") ++ ": cannot seek") e)
      | .ok _ => pure ()
    let convert (s : String) : String :=
      if c.conversions.contains "ucase" then s.toUpper
      else if c.conversions.contains "lcase" then s.toLower else s
    let swaps := c.conversions.contains "swab"
    let done ← iterate (fun (done : Copied) => do
      if c.count.any (· ≤ done.whole + done.part) then pure (.done done)
      else
        match ← act (Act.read 0 c.inputBlock) with
        | .error e =>
          fault 1 (because "error reading 'standard input'" e)
          pure (.done done)
        | .ok bytes =>
          if bytes.isEmpty then pure (.done done)
          else
            let (cs, left) : List Char × List Char := if swaps then
                swapPairs (done.left ++ bytes.toList)
              else (bytes.toList, [])
            match ← act (Act.write 1 (convert (String.ofList cs))) with
            | .error e =>
              fault 1 (because "error writing 'standard output'" e)
              pure (.done done)
            | .ok () =>
              let size := bytes.length
              let isWhole := size = c.inputBlock
              pure (.again ⟨done.whole + (if isWhole then 1 else 0),
                done.part + (if isWhole then 0 else 1), done.bytes + size, left⟩)) ({} : Copied)
    let _ ← act (Act.write 1 (convert (String.ofList done.left)))
    if c.status != "none" then
      let (whole, part) := if c.isDirect && !swaps then (done.whole, done.part)
        else (done.bytes / c.outputBlock, if done.bytes % c.outputBlock = 0 then 0 else 1)
      let records := s!"{done.whole}+{done.part} records in\n{whole}+{part} records out\n"
      let unit := if done.bytes = 1 then "byte" else "bytes"
      let summary := if c.status = "noxfer" then ""
        else s!"{done.bytes} {unit} copied, 0.0001 s, 1.0 MB/s\n"
      act (Act.print 2 (records ++ summary))

end PipelineRunner.Utility
