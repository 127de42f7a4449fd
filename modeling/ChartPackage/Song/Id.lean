import ChartPackage.Text.LowerCase

/-!
The id of a song, made from the name of its project folder.
-/

namespace ChartPackage

def isSongIdChar (c : Char) : Bool := c.isLower || c.isDigit

/-- The folder's name in lower case, of which only ASCII letters and digits are kept. -/
def songId (folder : Text) : Text := folder.lowerCase.filter isSongIdChar

end ChartPackage
