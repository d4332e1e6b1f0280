import PatternHooks.Text.Ranges

/-!
White space and control characters, over all scripts.
-/

namespace PatternHooks.Text

def blankRanges : Ranges := [
  (0x9, 0xd), (0x20, 0x20), (0x85, 0x85), (0xa0, 0xa0), (0x1680, 0x1680), (0x2000, 0x200a),
  (0x2028, 0x2029), (0x202f, 0x202f), (0x205f, 0x205f), (0x3000, 0x3000)]

def isBlank (c : Char) : Bool := blankRanges.has c

def controlRanges : Ranges := [(0x0, 0x1f), (0x7f, 0x9f)]

def isControl (c : Char) : Bool := controlRanges.has c

def dropBlanks (cs : List Char) : List Char := cs.dropWhile isBlank

end PatternHooks.Text
