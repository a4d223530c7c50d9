/-
**The version of the library.**

It stands by itself: whoever asks for the version needs nothing else of the library.
-/

set_option relaxedAutoImplicit false
set_option autoImplicit false

namespace TraceReplay

/-- The version of the library. -/
def version : String := "0.1.0"

end TraceReplay
