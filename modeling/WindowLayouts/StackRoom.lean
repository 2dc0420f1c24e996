import WindowLayouts.Text.Basic

/- The room that is left on the stack. Three things are done by calls that wait for one another, one
   more for each level of what they go through: reading arrays and objects inside others, evaluating
   sums inside others, and making directories inside others. Where there is no room for one more
   call the whole fails, whatever it would have found. How much room there is depends on who called,
   so it is a parameter of everything that goes through such levels. -/
namespace WindowLayouts

class StackRoom where
  /-- How many arrays and objects may be open around another one. -/
  containers : Nat
  /-- How many sums and differences may be under way around a term. -/
  sums : Nat
  /-- How many directories that are missing may be made one inside the other. -/
  directories : Nat

/-- What a caller finds that was not called from far down itself. -/
instance (priority := low) StackRoom.ample : StackRoom where
  containers := 990
  sums := 990
  directories := 990

/-- What is said where there is no room for a call, with what the call was for. -/
def stackMessage (purpose : String) : Text :=
  text "maximum recursion depth exceeded" ++ text purpose

end WindowLayouts
