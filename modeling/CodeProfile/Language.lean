import CodeProfile.Text.Basic

/-!
# Languages

The languages a snippet can be written in. Only some of them have a bundled grammar; the others are
recognised from their text alone. `Language.ofId` reads an identifier or one of its usual short
forms, and `Language.id` writes the identifier that configuration files and records use.
-/

namespace CodeProfile

/-- A language that a snippet may be written in, or `unknown`. -/
inductive Language where
  | javaScript
  | typeScript
  | python
  | go
  | java
  | rust
  | c
  | cpp
  | cSharp
  | php
  | ruby
  | kotlin
  | swift
  | unknown
  deriving DecidableEq, Repr, Inhabited

namespace Language

/-- Every known language; of two equally likely languages the earlier one is chosen. -/
def all : List Language :=
  [javaScript, typeScript, python, go, java, rust, c, cpp, cSharp, php, ruby, kotlin, swift]

/-- The lower-case identifier. -/
def id : Language → String
  | javaScript => "javascript"
  | typeScript => "typescript"
  | python => "python"
  | go => "go"
  | java => "java"
  | rust => "rust"
  | c => "c"
  | cpp => "cpp"
  | cSharp => "csharp"
  | php => "php"
  | ruby => "ruby"
  | kotlin => "kotlin"
  | swift => "swift"
  | unknown => "unknown"

/-- The name under which the language is shown to a reader. -/
def name : Language → String
  | javaScript => "JavaScript"
  | typeScript => "TypeScript"
  | python => "Python"
  | go => "Go"
  | java => "Java"
  | rust => "Rust"
  | c => "C"
  | cpp => "C++"
  | cSharp => "C#"
  | php => "PHP"
  | ruby => "Ruby"
  | kotlin => "Kotlin"
  | swift => "Swift"
  | unknown => "Unknown"

/-- The name without punctuation, as the registry lists it. -/
def label : Language → String
  | cpp => "Cpp"
  | cSharp => "CSharp"
  | php => "Php"
  | l => l.name

/-- Position in the order of declaration, which is also the order of registry keys. -/
def rank (l : Language) : Nat := l.ctorIdx

def isUnknown (l : Language) : Bool := l = unknown

/-- The identifier that a usual short form stands for; any other text stands for itself. -/
def expandAlias (s : String) : String :=
  if s = "js" ∨ s = "node" then "javascript"
  else if s = "ts" then "typescript"
  else if s = "py" then "python"
  else if s = "golang" then "go"
  else if s = "rs" then "rust"
  else if s = "c++" then "cpp"
  else if s = "c#" ∨ s = "cs" then "csharp"
  else if s = "rb" then "ruby"
  else if s = "kt" then "kotlin"
  else s

/-- The known language with exactly this identifier. -/
def ofExactId? (s : String) : Option Language := all.find? (·.id = s)

/-- The language that a text names, by its identifier or a usual short form; blanks around it and
letter case do not matter. -/
def ofId (s : String) : Language :=
  (ofExactId? (expandAlias (Text.lowerAscii (Text.trim s)))).getD unknown

/-- Languages for which a grammar is bundled. -/
def hasGrammar : Language → Bool
  | javaScript | typeScript | python | go | java | rust | c => true
  | _ => false

end Language

end CodeProfile
