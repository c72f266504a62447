/-!
# Invocations

What the words of a command line come to once they are read: what to do, and the options that go with it.
-/
namespace Scoresheet

/-- What a command is asked to do. -/
inductive Task where
  | compute (schema inputs : String) (json : Bool) (out : Option String)
  | validate (schema : String)
  | order (schema : String)
  /-- Where it is not said how many execution marks are valid, those of all judges are. -/
  | template (judges : Nat) (valid : Option Nat) (criteria : String) (elements : Nat) (manual json : Bool)

structure Invocation where
  task : Task
  verbose : Bool
  /-- The settings file, where one is named. -/
  settings : Option String

end Scoresheet
