/-!
# Failures

A failure has a cause. Wrapping it into a context puts the context in front of its message, and
keeps it as the failure that the new one comes from. A trouble is what a command ends with: a
failure, or a refusal of the operating system, under the activities it interrupted.
-/
namespace CaretName

/-- Why something failed. -/
inductive Failure where
  /-- Reading or writing failed, for a cause that the system gives. -/
  | io (cause : String)
  /-- The configuration cannot be used. -/
  | config (message : String)
  /-- A file cannot be parsed. -/
  | parse (file message : String)
  /-- A request makes no sense. -/
  | invalidInput (message : String)
  /-- The clipboard cannot be used. -/
  | clipboard (message : String)
  /-- Another failure, in a context. -/
  | inContext (context : String) (source : Failure)
  /-- Anything else. -/
  | other (message : String)
  deriving DecidableEq, Repr

namespace Failure

/-- What a failure says. -/
def message : Failure → String
  | io cause => "I/O error: " ++ cause
  | config message => "Configuration error: " ++ message
  | parse file message => "Parse error in " ++ file ++ ": " ++ message
  | invalidInput message => "Invalid input: " ++ message
  | clipboard message => "Clipboard error: " ++ message
  | inContext context source => context ++ ": " ++ source.message
  | other message => message

/-- What a failure says, and what each failure says that it comes from. -/
def chain : Failure → List String
  | io cause => ["I/O error: " ++ cause, cause]
  | inContext context source => (context ++ ": " ++ source.message) :: source.chain
  | config message => [(config message).message]
  | parse file message => [(parse file message).message]
  | invalidInput message => [(invalidInput message).message]
  | clipboard message => [(clipboard message).message]
  | other message => [message]

/-- A chain of messages on one line. -/
def onOneLine (chain : List String) : String := ": ".intercalate chain

end Failure

/-- What a command ends with when it cannot do its work. -/
inductive Trouble where
  /-- A failure of this program's own making. -/
  | failed (failure : Failure)
  /-- A refusal of the operating system. -/
  | system (cause : String)
  /-- A trouble that interrupted an activity. -/
  | during (activity : String) (trouble : Trouble)
  deriving DecidableEq, Repr

namespace Trouble

/-- The activities that were interrupted, the outermost first, and then the cause. -/
def chain : Trouble → List String
  | failed failure => failure.chain
  | system cause => [cause]
  | during activity trouble => activity :: trouble.chain

/-- The trouble on one line. -/
def report (trouble : Trouble) : String := Failure.onOneLine trouble.chain

end Trouble

end CaretName
