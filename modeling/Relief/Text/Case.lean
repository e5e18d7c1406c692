set_option autoImplicit false

/-! # Case: texts that differ in capital letters only

Names of formats and presets can be compared without regard to case. Only the letters of ASCII have
two cases here; every other character equals itself alone. -/

namespace Relief.Text

/-- Whether two texts are the same up to the case of ASCII letters. -/
def sameLetters (a b : String) : Bool := a.toList.map Char.toLower == b.toList.map Char.toLower

end Relief.Text
