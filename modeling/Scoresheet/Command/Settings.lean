/-!
# Settings

What a settings file may say.  Where it says nothing there are defaults.
-/
namespace Scoresheet

structure Settings where
  /-- Which log lines are wanted. -/
  logLevel : String := "warn"
  /-- Whether output is coloured; without it, only on a terminal. -/
  color : Option Bool := none
  /-- The decimal places of tables. -/
  places : Nat := 3
deriving DecidableEq

end Scoresheet
