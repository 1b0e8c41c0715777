import PathQuery.Template.Mark

/-!
# Parts of a template

A compiled template is a list of parts, in which blocks hold parts of their own. Written out in order,
parts are marks again.
-/

namespace PathQuery

inductive Part where
  | text (s : String)
  /-- Writes the text of the first result. -/
  | value (terms : List Term)
  | insertion (name : String)
  /-- Its body, once for each result. -/
  | loop (subject : List Term) (body : List Part)
  /-- One of two bodies, as the first result is true or not. -/
  | choice (guard : List Term) (yes no : List Part)

instance : Inhabited Part := ⟨.text ""⟩

mutual

/-- The marks of a part; the ends of blocks name nothing, and a choice turns just if something follows. -/
def Part.marks : Part → List Mark
  | .text s => [.text s]
  | .value terms => [.value terms]
  | .insertion name => [.insertion name]
  | .loop subject body => .loop subject :: (marksOf body ++ [.close none])
  | .choice guard yes [] => .choice guard :: (marksOf yes ++ [.close none])
  | .choice guard yes (p :: ps) =>
    .choice guard :: (marksOf yes ++ .otherwise :: (marksOf (p :: ps) ++ [.close none]))

def marksOf : List Part → List Mark
  | [] => []
  | p :: ps => p.marks ++ marksOf ps

end

mutual

def Part.insertions : Part → List String
  | .text _ => []
  | .value _ => []
  | .insertion name => [name]
  | .loop _ body => insertionsOf body
  | .choice _ yes no => insertionsOf yes ++ insertionsOf no

def insertionsOf : List Part → List String
  | [] => []
  | p :: ps => p.insertions ++ insertionsOf ps

end

end PathQuery
