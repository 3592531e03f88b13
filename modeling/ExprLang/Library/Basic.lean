import ExprLang.Host.Registry
import ExprLang.Library.Functions

/-!
# The built-in functions

The definitions of the library's functions with their documentation, to be registered under a
qualifier of choice.
-/

namespace ExprLang.Library

/-- Text parameters without a description. -/
def textParameters (names : List String) : List FunctionParameter :=
  names.map fun name => ⟨name.toList, "string".toList, []⟩

def parameter (name type description : String) : FunctionParameter :=
  ⟨name.toList, type.toList, description.toList⟩

/-- A definition with one example.  The implementation knows its name. -/
def define (qualifier : Option Text) (category : FunctionCategory)
    (implementation : Text → List Value → Except Failure Value) (name description : String)
    (parameters : List FunctionParameter) (returnType exampleText : String) :
    FunctionDefinition where
  name := name.toList
  qualifier := qualifier
  implementation := .pure (implementation name.toList)
  description := description.toList
  category := category
  parameters := parameters
  returnType := returnType.toList
  examples := [exampleText.toList]

def textFunctions (qualifier : Option Text) : List FunctionDefinition := [
  define qualifier .string (ofTwo contains) "contains"
    "Tests if a string contains a substring"
    (textParameters ["input", "substring"]) "boolean" "fn:contains(name, \"son\")",
  define qualifier .string (ofTwo containsIgnoreCase) "containsIgnoreCase"
    "Tests if a string contains a substring, ignoring case"
    (textParameters ["input", "substring"]) "boolean" "fn:containsIgnoreCase(name, \"SON\")",
  define qualifier .string (ofTwo endsWith) "endsWith"
    "Tests if a string ends with a suffix"
    (textParameters ["input", "suffix"]) "boolean" "fn:endsWith(file, \".pdf\")",
  define qualifier .string (ofTwo startsWith) "startsWith"
    "Tests if a string starts with a prefix"
    (textParameters ["input", "prefix"]) "boolean" "fn:startsWith(sku, \"PRD-\")",
  define qualifier .string (ofTwo indexOf) "indexOf"
    "Index of the first occurrence of a substring, or -1"
    (textParameters ["input", "substring"]) "number" "fn:indexOf(email, \"@\")",
  define qualifier .string (ofThree replace) "replace"
    "Replaces every occurrence of a substring"
    (textParameters ["input", "before", "after"]) "string" "fn:replace(path, \"/\", \".\")",
  define qualifier .string (ofTwo substringAfter) "substringAfter"
    "The part of a string after the first occurrence of a separator"
    (textParameters ["input", "separator"]) "string" "fn:substringAfter(email, \"@\")",
  define qualifier .string (ofTwo substringBefore) "substringBefore"
    "The part of a string before the first occurrence of a separator"
    (textParameters ["input", "separator"]) "string" "fn:substringBefore(email, \"@\")",
  define qualifier .string (ofOne toLowerCase) "toLowerCase"
    "Converts a string to lowercase"
    (textParameters ["input"]) "string" "fn:toLowerCase(code)",
  define qualifier .string (ofOne toUpperCase) "toUpperCase"
    "Converts a string to uppercase"
    (textParameters ["input"]) "string" "fn:toUpperCase(code)",
  define qualifier .string (ofOne trim) "trim"
    "Removes whitespace from both ends of a string"
    (textParameters ["input"]) "string" "fn:trim(name) != \"\"",
  define qualifier .string (ofThree substring) "substring"
    "Substring between two indices (end exclusive)"
    [parameter "input" "string" "The source string",
      parameter "beginIndex" "number" "First index, clamped to 0",
      parameter "endIndex" "number" "End index; negative means the end"]
    "string" "fn:substring(code, 0, 3)"]

def collectionFunctions (qualifier : Option Text) : List FunctionDefinition := [
  define qualifier .collection (ofTwo join) "join"
    "Joins the items of an array into a string"
    [parameter "array" "array" "Items to join",
      parameter "separator" "string" "Text between items"]
    "string" "fn:join(tags, \", \")",
  define qualifier .collection (ofOne length) "length"
    "Number of characters in a string or items in a collection"
    [parameter "input" "string|array" "The value to measure"]
    "number" "fn:length(items) > 0",
  define qualifier .collection (ofTwo split) "split"
    "Splits a string on any of the given delimiter characters"
    [parameter "input" "string" "The string to split",
      parameter "delimiters" "string" "Delimiter characters"]
    "array" "fn:split(csv, \",\")[0]"]

def markupFunctions (qualifier : Option Text) : List FunctionDefinition := [
  define qualifier .markup (ofOne escapeXml) "escapeXml"
    "Escapes characters that would be interpreted as XML markup"
    [parameter "input" "string" "The text to escape"]
    "string" "fn:escapeXml(comment)"]

/-- All built-in functions. -/
def functions (qualifier : Option Text) : List FunctionDefinition :=
  textFunctions qualifier ++ collectionFunctions qualifier ++ markupFunctions qualifier

/-- The qualifier of the built-in functions where nothing else is chosen. -/
def defaultQualifier : Option Text := some ['f', 'n']

end ExprLang.Library

namespace ExprLang.Registry

/-- The registry with the built-in functions. -/
def addLibrary (registry : Registry) (qualifier : Option Text) : Registry :=
  registry.registerAll (Library.functions qualifier)

/-- The registry of the built-in functions alone. -/
def builtin : Registry :=
  empty.addLibrary Library.defaultQualifier

theorem mem_functions_of_mem_builtin {definition : FunctionDefinition}
    (h : definition ∈ builtin.definitions) :
    definition ∈ Library.functions Library.defaultQualifier := by
  rcases mem_of_mem_registerAll h with h | h
  · exact h
  · cases h

end ExprLang.Registry
