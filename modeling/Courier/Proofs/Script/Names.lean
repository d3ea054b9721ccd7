import Courier.Proofs.Text.Lower
import Courier.Proofs.Text.Words
import Courier.Script.Definition

/-!
# Names as they are compared

A name that is compared has no blanks around it and is in lower case. Such a name stays as it is when it
is compared again, so whatever is found by a name is found by each of its spellings.
-/

namespace Courier.Script

/-- Lower case brings no blanks to the ends of a text. -/
theorem strip_lower_strip (s : String) :
    Text.strip (Text.lower (Text.strip s)) = Text.lower (Text.strip s) := by
  rw [Text.strip, Text.trimWhile_of_ends, String.ofList_toList]
  · rw [Text.lower, String.toList_ofList]
    refine Text.head?_lowerFrom fun c hc => ?_
    rw [Text.strip, String.toList_ofList] at hc
    exact Text.head?_trimWhile hc
  · rw [Text.lower, String.toList_ofList]
    refine Text.getLast?_lowerFrom fun c hc => ?_
    rw [Text.strip, String.toList_ofList] at hc
    exact Text.getLast?_trimWhile hc

@[simp] theorem normalize_normalize (name : String) : normalize (normalize name) = normalize name := by
  rw [normalize, normalize, strip_lower_strip, Text.lower_lower]

end Courier.Script
