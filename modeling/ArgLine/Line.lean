import ArgLine.Text.Decimal

/-!
# ArgLine.Line

The line that the program prints: its first argument, a colon and a space, the
number of arguments in decimal, and a newline.  Arguments are counted whatever
they look like.
-/

namespace ArgLine

/-- The name in the line: the first argument, empty if there is none. -/
def nameOf (args : List Bytes) : Bytes := args.head?.getD []

/-- The line about an argument list. -/
def line (args : List Bytes) : Bytes :=
  nameOf args ++ ascii ": " ++ Decimal.ofNat args.length ++ [Bytes.newline]

end ArgLine
