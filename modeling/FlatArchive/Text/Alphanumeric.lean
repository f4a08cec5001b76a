-- SUMMARY: The letters and numerals of all scripts.
import FlatArchive.Text.Letter
import FlatArchive.Text.Numeral

/-!
# Letters and numerals

The characters of which the words and numbers of all scripts are made.
-/

namespace FlatArchive.Text.Alphanumeric

def contains (c : Char) : Bool := Letter.contains c || Numeral.contains c

end FlatArchive.Text.Alphanumeric
