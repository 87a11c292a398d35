import Reckon.Markup

/-!
# Help texts

What the commands for help and for colours show.
-/

namespace Reckon.Shell

/-- The text of the help command. -/
def helpText : String :=
  "\n".intercalate
    [ "§a== Commands ==§f",
      "help\tShows this text.",
      "vars\tLists variables.",
      "consts\tLists constants.",
      "functions\tLists built-in and user functions.",
      "colors\tLists the color codes used by display.",
      "function NAME PARAMS EXPR\tDefines a function. PARAMS is a comma-separated list of names.",
      "delvar NAME\tDeletes a variable, or every variable if NAME is ~.",
      "delf NAME\tDeletes a function, or every function if NAME is ~.",
      "display EXPR\tShows a list of character codes as text.",
      "dump\tPrints the saved variables and functions.",
      "NAME=EXPR\tAssigns a variable.",
      "Anything else is evaluated. The result is kept in the variable \"ans\".",
      "",
      "§b== Values ==§f",
      "There are §anumbers§f, §alists§f like §7\x7b1,\x7b2\x7d,3\x7d§f, and §avectors§f like §7<1,2,3>§f.",
      "Each kind can stand in for the others. A list or vector used as a number is its",
      "length, so §7\x7b1,2,3\x7d+1§f is §74§f. A number used as a list or vector has itself as its",
      "only element, so §7union(1,2)§f is §7\x7b1,2\x7d§f. Lists and vectors convert elementwise,",
      "so §7dot(\x7b1,2\x7d,\x7b3,4\x7d)§f is §711§f. Text in quotes is a list of character codes.",
      "",
      "§b== Operators ==§f",
      "+ -\tadd or subtract numbers or vectors",
      "* /\tmultiply or divide numbers, or a vector by a number",
      "%\tremainder of numbers",
      "Operators on a list use its length.",
      "",
      "§b== Functions and delegates ==§f",
      "A delegate is an expression passed to a function: §7[x,y: x*y+2]§f.",
      "A function parameter written as §7f(n)§f takes a delegate of n parameters, which",
      "the body calls like any function:",
      "\t§7function twice f(1),x f(f(x))§f",
      "\t§7twice([y: y*3], 2)§f is §718§f",
      "Variables are looked up where a function is called, not where it is defined.",
      "",
      "§b== Display ==§f",
      "display converts each element of a list to a character. 128 becomes the color",
      "marker §§, and the character after a marker picks a color (see colors):",
      "\t§7display union(\x7b128,toascii(MILLIS%16)\x7d, \"Hello\")§f",
      "",
      "§b== Examples ==§f",
      "\t§7diff([x: pow(x,2)], 11)§f is §722§f",
      "\t§7int([x: exp(-x)], 1, 10)§f",
      "\t§7solve([x: pow(x,2)-5*x+4], 0.5)§f is about §71§f",
      "\t§7foreach(\x7b1,2,3\x7d, [x: x+1])§f is §7\x7b2,3,4\x7d§f",
      "\t§7function r t <sin(t),cos(t),t>§f then §7diff([x: r(x)], 0)§f is §7<1,0,1>§f" ]

/-- The line of the listing for a colour, with its digit, its name and a sample. -/
def colorLine (digit : Char) (color : Markup.Color) : String :=
  let m := String.singleton Markup.marker
  let digit := String.singleton digit
  "\n" ++ m ++ m ++ digit ++ " " ++ color.name ++ " (" ++ m ++ digit ++ "===" ++ m ++ "f)"

/-- The text of the colours command. -/
def colorsText : String :=
  "§f== Colors ==" ++ String.join (List.zipWith colorLine "0123456789ABCDEF".toList Markup.colors)

end Reckon.Shell
