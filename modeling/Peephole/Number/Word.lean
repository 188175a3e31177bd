/-!
Machine words. Counts, places and sizes have to be integers that a signed word of 64 bits holds:
there is one more of them below zero than above.
-/

namespace Peephole

namespace Word

/-- How many words are below zero. -/
def bound : Int := 0x8000000000000000

/-- Whether a word holds an integer. -/
def holds (value : Int) : Bool :=
  -bound ≤ value && value < bound

end Word

end Peephole
