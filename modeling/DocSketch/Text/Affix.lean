/-!
# Starts and ends of texts

* `Text.stripStart?`: what follows a given start.
* `Text.stripEnd?`: what stands before a given end.
* `Text.between?`: what stands between the two.
-/

namespace DocSketch

namespace Text

/-- What follows `start`, if `text` starts with it. -/
def stripStart? (start text : List Char) : Option (List Char) :=
  if start.isPrefixOf text then some (text.drop start.length) else none

/-- What stands before `stop`, if `text` ends with it. -/
def stripEnd? (stop text : List Char) : Option (List Char) :=
  if stop.isSuffixOf text then some (text.take (text.length - stop.length)) else none

/-- What stands between `start` and `stop`, if `text` starts and ends with them. -/
def between? (start stop text : List Char) : Option (List Char) :=
  (stripStart? start text).bind (stripEnd? stop)

end Text

end DocSketch
