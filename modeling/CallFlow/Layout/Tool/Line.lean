import CallFlow.Layout.Tool.Flag

namespace CallFlow.Layout.Tool

def lines (text : Chars) : List Chars :=
  match (Text.pieces '\n' text).reverse with
  | [] => []
  | last :: before =>
    (before.map (· ++ ['\n'])).reverse ++ if last = [] then [] else [last]

def bare (line : Chars) : Chars :=
  if line.getLast? = some '\n' then line.dropLast else line

def bareLines (text : Chars) : List Chars :=
  (lines text).map bare

def unlines (lines : List Chars) : Chars :=
  lines.flatMap (· ++ ['\n'])

end CallFlow.Layout.Tool
