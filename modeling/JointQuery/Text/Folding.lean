/-! Names looked up without regard to the case of ASCII letters. -/
namespace JointQuery.Text

/-- The text with its ASCII capitals made small; every other character stays. -/
def foldCase (text : String) : String :=
  String.ofList (text.toList.map Char.toLower)

/-- The member of a list whose name is the given text in any case. -/
def findFolded {α : Type} (name : α → String) (all : List α) (text : String) : Option α :=
  all.find? (name · == foldCase text)

/-- The member of a list with exactly the given name. -/
def findNamed {α : Type} (name : α → String) (all : List α) (text : String) : Option α :=
  all.find? (name · == text)

end JointQuery.Text
