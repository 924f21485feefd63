import InputTape.CommandLine.Commands
import InputTape.Text.Lines

/-! Commands on files held in memory, with a clock that only moves while something waits. -/

set_option autoImplicit false

namespace InputTape.CommandLine

structure Terminal where
  tree : FileTree
  current : FileTree.Location
  now : Time
  printed : Array String
  remarks : Array String

namespace Terminal

def start (tree : FileTree) (current : FileTree.Location) : Terminal :=
  ⟨tree, current, 0, #[], #[]⟩

/-- Answer what a command asks. Nothing is ever cancelled. -/
def answer (request : Request) (terminal : Terminal) : request.Answer × Terminal :=
  match request with
  | .read path => (terminal.tree.readText terminal.current path, terminal)
  | .write path text =>
    match terminal.tree.write terminal.current path text.toUTF8 with
    | .ok tree => (.ok (), { terminal with tree := tree })
    | .error error => (.error error, terminal)
  | .exists path => ((terminal.tree.locate terminal.current path).isOk, terminal)
  | .print text => ((), { terminal with printed := terminal.printed.push text })
  | .remark text => ((), { terminal with remarks := terminal.remarks.push text })
  | .clock => (terminal.now, terminal)
  | .wait _ deadline => (.reached, { terminal with now := max terminal.now deadline })
  | .isCancelled => (false, terminal)

def outputLines (terminal : Terminal) : List String :=
  Text.lines (Text.ended terminal.printed.toList)

def remarkText (terminal : Terminal) : String := Text.ended terminal.remarks.toList

end Terminal
end InputTape.CommandLine
