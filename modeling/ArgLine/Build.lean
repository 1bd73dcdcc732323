import ArgLine.Log.Logger

/-!
# ArgLine.Build

Version, date and commit of a build.  What is not known is `N/A`.
-/

namespace ArgLine

/-- What is known of a build. -/
structure Build where
  version : Bytes
  date : Bytes
  commit : Bytes
  deriving DecidableEq, Repr

namespace Build

/-- A text, or `N/A` in place of the empty one. -/
def orUnknown (text : Bytes) : Bytes := if text = [] then ascii "N/A" else text

/-- The build info of three texts, each `N/A` if it is empty. -/
def ofTexts (version date commit : Bytes) : Build :=
  ⟨orUnknown version, orUnknown date, orUnknown commit⟩

/-- The entry about a build. -/
def entry (b : Build) : Log.Entry :=
  ⟨.debug, ascii "build info",
    [⟨ascii "version", .text b.version⟩, ⟨ascii "date", .text b.date⟩,
      ⟨ascii "commit", .text b.commit⟩]⟩

end Build

end ArgLine
