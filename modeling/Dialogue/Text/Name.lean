set_option autoImplicit false

namespace Dialogue.Text

def isNameStart (c : Char) : Bool :=
  c.isAlpha || c = '_'

def isNameChar (c : Char) : Bool :=
  c.isAlphanum || c = '_'

end Dialogue.Text
