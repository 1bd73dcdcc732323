import ArgLine.Text.Bytes

/-!
# ArgLine.Checkers

Which checkers a lint run uses, by name and in order: the standard passes, the
bug checkers of one list, one style checker of another, and two of its own.
-/

namespace ArgLine

namespace Checkers

/-- The standard passes. -/
def standard : List Bytes :=
  ["asmdecl", "assign", "atomic", "bools", "buildtag", "cgocall", "composites", "copylocks",
    "errorsas", "framepointer", "httpresponse", "ifaceassert", "loopclosure", "lostcancel",
    "nilfunc", "printf", "shadow", "shift", "sigchanyzer", "stdmethods", "stringintconv",
    "structtag", "tests", "unmarshal", "unreachable", "unsafeptr", "unusedresult"].map ascii

/-- The checkers that always come last. -/
def closing : List Bytes := ["nilerr", "noosexit"].map ascii

/-- What the name of a bug checker starts with. -/
def bugMark : Bytes := ascii "SA"

/-- The one style checker that is used. -/
def styleName : Bytes := ascii "ST1000"

/-- The checkers of a run, given the names in the bug list and in the style list. -/
def inUse (bugs styles : List Bytes) : List Bytes :=
  standard ++ bugs.filter (bugMark.isPrefixOf ·) ++ styles.filter (· = styleName) ++ closing

end Checkers

end ArgLine
