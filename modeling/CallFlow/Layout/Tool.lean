import CallFlow.Layout.Tool.Arrangement
import CallFlow.Layout.Tool.Cat
import CallFlow.Layout.Tool.Excerpt
import CallFlow.Layout.Tool.Filing
import CallFlow.Layout.Tool.Series
import CallFlow.Layout.Tool.Tally
import CallFlow.Layout.Tool.Transliteration

namespace CallFlow.Layout.Tool

def named : List (String × Program) :=
  [("basename", Series.basename), ("cat", Cat.run), ("cp", Filing.copy true),
    ("cut", Arrangement.cut), ("dirname", Series.dirname), ("echo", Series.echo),
    ("false", .exitWith 1), ("head", Excerpt.run .beginning), ("ls", Filing.ls), ("mkdir", Filing.mkdir), ("mv", Filing.copy false),
    ("rev", Arrangement.rev), ("rm", Filing.rm), ("rmdir", Filing.rmdir), ("seq", Series.seq), ("sleep", Series.sleep),
    ("sort", Arrangement.sort), ("tac", Arrangement.tac), ("tail", Excerpt.run .ending),
    ("tee", Filing.tee), ("touch", Filing.touch), ("tr", Transliteration.run), ("true", .exitWith 0),
    ("uniq", Arrangement.uniq), ("wc", Tally.run), ("yes", Series.yes)]

def named? (name : Chars) : Option Program :=
  named.lookup (String.ofList name)

end CallFlow.Layout.Tool
