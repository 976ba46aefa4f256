import PipelineRunner.Shell.Command
import PipelineRunner.Text.Bytes
import PipelineRunner.Text.Basic

/-!
Commands of the extended language as they are written, each on lines of its own. Quoted texts stand
between double quotes.
-/

namespace PipelineRunner.Shell.Extended.Written

open Text

/-- So many blanks in front of a line. -/
def indent (depth : Nat) : String := Bytes.fill ' ' (4 * depth)

/-- A quoted text as it stands between double quotes. -/
def insideQuotes (s : String) : String :=
  String.ofList (s.toList.flatMap fun c =>
    if ['"', '$', '\x60', '\\'].contains c then ['\\', c] else [c])

def useSign : FileUse → String
  | .read => "<"
  | .write => ">"
  | .replace => ">|"
  | .append => ">>"
  | .update => "<>"

/-- The sign of a redirection of a descriptor, which may be the usual one. -/
def arrow (usual d : Nat) (sign : String) : String :=
  (if d = usual then "" else toString d) ++ sign

def usualOf : FileUse → Nat
  | .read | .update => 0
  | _ => 1

def recaseSign (how : Recasing) (every : Bool) : String :=
  let sign := match how with
    | .upper => "^"
    | .lower => ","
    | .swapped => "~"
  if every then sign ++ sign else sign

def replaceSign : Replacing → String
  | .first => "/"
  | .every => "//"
  | .front => "/#"
  | .back => "/%"

def isQuoted : WordPart → Bool
  | .text _ q | .parameter _ _ q | .output _ q | .arithmetic _ q | .element _ _ _ _ q
  | .names _ _ q => q
  | _ => false

/-- Texts with quotes around those that are quoted. -/
def withMarks : Bool → List (Bool × String) → List String
  | inQuotes, [] => if inQuotes then ["\""] else []
  | inQuotes, (q, text) :: rest =>
    (if q != inQuotes then ["\""] else []) ++ text :: withMarks q rest

def ungrouped : Command → Command
  | .group c => c
  | c => c

mutual

/-- A part of a word without the quotes around it. -/
def part (fuel : Nat) (p : WordPart) : String :=
  match fuel with
  | 0 => ""
  | fuel + 1 =>
    match p with
    | .text s true => insideQuotes s
    | .text s false => s
    | .parameter n .value _ => if n.length = 1 || isName n then "$" ++ n else "$\x7b" ++ n ++ "\x7d"
    | .parameter n .length _ => "$\x7b#" ++ n ++ "\x7d"
    | .parameter n e _ => "$\x7b" ++ n ++ expansion fuel e ++ "\x7d"
    | .element n s isIndirect e _ =>
      let sign := match isIndirect, e with
        | true, _ | _, .places => "!"
        | _, .length => "#"
        | _, _ => ""
      "$\x7b" ++ sign ++ n ++ subscript s ++ expansion fuel e ++ "\x7d"
    | .names start isApart _ => "$\x7b!" ++ start ++ (if isApart then "@" else "*") ++ "\x7d"
    | .output c _ => "$(" ++ command fuel false 0 c ++ ")"
    | .arithmetic w _ => "$((" ++ bare fuel w ++ "))"
    | .elements items => "(" ++ join " " (items.map (item fuel)) ++ ")"
    | .channel writes c => (if writes then "<(" else ">(") ++ command fuel false 0 c ++ ")"

/-- What stands behind the name of a parameter. -/
def expansion (fuel : Nat) (e : Expansion) : String :=
  match fuel with
  | 0 => ""
  | fuel + 1 =>
    let colon (strict : Bool) : String := if strict then ":" else ""
    match e with
    | .value | .length | .places => ""
    | .default strict w => colon strict ++ "-" ++ bare fuel w
    | .assign strict w => colon strict ++ "=" ++ bare fuel w
    | .alternative strict w => colon strict ++ "+" ++ bare fuel w
    | .required strict w => colon strict ++ "?" ++ bare fuel w
    | .dropFront longest w => (if longest then "##" else "#") ++ bare fuel w
    | .dropBack longest w => (if longest then "%%" else "%") ++ bare fuel w
    | .slice offset length =>
      ":" ++ bare fuel offset ++ ((length.map fun w => ":" ++ bare fuel w).getD "")
    | .replace which p w => replaceSign which ++ bare fuel p ++ "/" ++ bare fuel w
    | .recase how every w => recaseSign how every ++ bare fuel w
    | .transform letter => "@" ++ String.singleton letter
    | .unknown written => written

def subscript (s : Subscript) : String :=
  match s with
  | .absent => ""
  | .every isApart => if isApart then "[@]" else "[*]"
  | .place text _ => "[" ++ text ++ "]"

def bare (fuel : Nat) (w : Word) : String :=
  match fuel with
  | 0 => ""
  | fuel + 1 => String.join (w.map (part fuel))

def item (fuel : Nat) (a : Assignment) : String :=
  match fuel with
  | 0 => ""
  | fuel + 1 =>
    match a with
    | .mk name s appends w =>
      let isPlain := name.isEmpty && (match s with
        | .absent => true
        | _ => false)
      if isPlain then word fuel w
      else name ++ subscript s ++ (if appends then "+=" else "=") ++ word fuel w

/-- A word with quotes around the parts that are quoted. -/
def word (fuel : Nat) (w : Word) : String :=
  match fuel with
  | 0 => ""
  | fuel + 1 =>
    match w with
    | [.elements [a]] => item fuel a
    | w =>
      String.join (withMarks false (w.map fun p => (isQuoted p, part fuel p)))

def redirect (fuel : Nat) (r : Redirect) : String :=
  match fuel with
  | 0 => ""
  | fuel + 1 =>
    match r with
    | .file d use w _ => arrow (usualOf use) d (useSign use) ++ " " ++ word fuel w
    | .copy d w => (if d = 0 then "<&" else arrow 1 d ">&") ++ word fuel w
    | .merge w _ => "&>" ++ " " ++ word fuel w
    | .both use w _ => "&" ++ useSign use ++ " " ++ word fuel w
    | .document d _ => arrow 0 d "<<"
    | .line d w => arrow 0 d "<<< " ++ word fuel w
    | .named name r => "\x7b" ++ name ++ "\x7d" ++ redirect fuel r

def check (fuel : Nat) (c : Check) : String :=
  match fuel with
  | 0 => ""
  | fuel + 1 =>
    match c with
    | .word w => word fuel w
    | .unary operator w => operator ++ " " ++ word fuel w
    | .binary operator a b => word fuel a ++ " " ++ operator ++ " " ++ word fuel b
    | .negation c => "! " ++ check fuel c
    | .both a b => check fuel a ++ " && " ++ check fuel b
    | .either a b => check fuel a ++ " || " ++ check fuel b

/-- A command, of which all lines but the first stand so far to the right. The commands of a
function stand each on a line of its own. -/
def command (fuel : Nat) (isApart : Bool) (depth : Nat) (c : Command) : String :=
  match fuel with
  | 0 => ""
  | fuel + 1 =>
    let line (depth : Nat) (s : String) : String := "\n" ++ indent depth ++ s
    let same (c : Command) : String := command fuel isApart depth c
    let body (c : Command) : String :=
      line (depth + 1) (command fuel isApart (depth + 1) c) ++ ";"
    match c with
    | .nothing => ""
    | .simple _ assignments words redirects written =>
      let front := if written.isEmpty then assignments.map (item fuel) ++ words.map (word fuel)
        else written
      join " " (front ++ redirects.map (redirect fuel))
    | .pipeline cs => join " | " (cs.map same)
    | .negated c => "! " ++ same c
    | .both a b => same a ++ " && " ++ same b
    | .either a b => same a ++ " || " ++ same b
    | .sequence a b =>
      let separator := match a with
        | .background _ => ""
        | .sequence _ (.background _) => ""
        | _ => ";"
      if isApart then same a ++ separator ++ line depth (same b)
      else same a ++ separator ++ " " ++ same b
    | .group c =>
      if isApart then
        "\x7b " ++ line (depth + 1) (command fuel isApart (depth + 1) c) ++ line depth "\x7d"
      else
        let ends := match c with
          | .background _ | .sequence _ (.background _) => " \x7d"
          | _ => "; \x7d"
        "\x7b " ++ same c ++ ends
    | .background c => same c ++ " &"
    | .conditional condition yes no =>
      "if " ++ same condition ++ "; then" ++ body yes ++
        (match no with
          | some no => line depth "else" ++ body no
          | none => "") ++ line depth "fi"
    | .loop negated condition inside =>
      (if negated then "until " else "while ") ++ same condition ++ "; do" ++
        body inside ++ line depth "done"
    | .forEach _ name words inside =>
      "for " ++ name ++ " in " ++ join " " (words.map (word fuel)) ++ ";" ++ line depth "do" ++
        body inside ++ line depth "done"
    | .select _ name words inside =>
      "select " ++ name ++ " in " ++ join " " (words.map (word fuel)) ++ ";" ++ line depth "do" ++
        body inside ++ line depth "done"
    | .count _ a b c inside =>
      "for ((" ++ join "; " [bare fuel a, bare fuel b, bare fuel c] ++ "))" ++ line depth "do" ++
        body inside ++ line depth "done"
    | .choice _ w arms =>
      "case " ++ word fuel w ++ " in " ++ String.join (arms.map (arm fuel isApart depth)) ++
        line depth "esac"
    | .redirected _ c rs => same c ++ " " ++ join " " (rs.map (redirect fuel))
    | .subshell _ c rs => join " " (("( " ++ same c ++ " )") :: rs.map (redirect fuel))
    | .function _ name c =>
      "function " ++ name ++ " () " ++ line depth "\x7b " ++
        line (depth + 1) (command fuel true (depth + 1) (ungrouped c)) ++ line depth "\x7d"
    | .arithmetic _ w => "((" ++ bare fuel w ++ "))"
    | .check _ c => "[[ " ++ check fuel c ++ " ]]"
    | .timed isShort c => (if isShort then "time -p " else "time ") ++ same c

def arm (fuel : Nat) (isApart : Bool) (depth : Nat) (a : Arm) : String :=
  match fuel with
  | 0 => ""
  | fuel + 1 =>
    match a with
    | .mk patterns c ending =>
      let mark := match ending with
        | .leaves => ";;"
        | .fallsThrough => ";&"
        | .looksOn => ";;&"
      let inside := match c with
        | .nothing => ""
        | c => indent (depth + 2) ++ command fuel isApart (depth + 2) c
      "\n" ++ indent (depth + 1) ++ join " | " (patterns.map (word fuel)) ++ ")" ++
        "\n" ++ inside ++ "\n" ++ indent (depth + 1) ++ mark

end

/-- More parts one below the other than any command has. -/
def depth : Nat := 1000000000

def ofWord (w : Word) : String := word depth w

def ofCommand (c : Command) : String := command depth false 0 c

def ofFunction (name : String) (c : Command) : String :=
  let body (c : Command) : String := command depth true 1 (ungrouped c) ++ "\n\x7d"
  let inside := match c with
    | .redirected _ c rs => body c ++ " " ++ join " " (rs.map (redirect depth))
    | c => body c
  name ++ " () \n\x7b \n" ++ indent 1 ++ inside ++ "\n"

end PipelineRunner.Shell.Extended.Written
