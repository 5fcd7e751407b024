import CodeProfile.Language

/-!
# Libraries

What is known about an imported module: the package it belongs to, what it is for, and whether it
is part of the snippet's own project. The purpose is looked up in a table of packages, then guessed
from words in the package name, and then the standard library of the language is tried.
-/

namespace CodeProfile

open Text

/-- What a library is for. -/
inductive LibraryCategory where
  | standardLibrary
  | framework
  | utility
  | testing
  | database
  | ui
  | unknown
  deriving DecidableEq, Repr, Inhabited

/-- An imported module. -/
structure LibraryInfo where
  /-- The module as the import writes it. -/
  name : String
  /-- The package that the module belongs to. -/
  package : String
  category : LibraryCategory
  /-- Whether the module is part of the same project. -/
  isLocal : Bool
  line : Nat
  deriving DecidableEq, Repr, Inhabited

namespace LibraryInfo

/-- Whether the module must be installed from elsewhere. -/
def isThirdParty (l : LibraryInfo) : Bool := !l.isLocal && l.category != .standardLibrary

end LibraryInfo

namespace Library

/-! ## Packages -/

/-- The piece before the first `separator`. -/
def firstPiece (separator : Char) (s : String) : String :=
  String.ofList (s.toList.takeWhile (· != separator))

/-- Without the `::` at the start, as often as they stand there. -/
def dropPathMarks : List Char → List Char
  | ':' :: ':' :: cs => dropPathMarks cs
  | cs => cs

/-- The piece before the first `::`. -/
def firstPathSegment (cs : List Char) : List Char :=
  match splitAtFirst? [':', ':'] cs with
  | some (before, _) => before
  | none => cs

/-- The package that a module belongs to. A package of a scope has two segments. -/
def packageRoot (module : String) : Language → String
  | .javaScript | .typeScript =>
    let path := (afterStart? module "node:").getD module
    match splitWhere (· == '/') path with
    | [] => path
    | [first] => first
    | first :: second :: _ => if hasStart first "@" then first ++ "/" ++ second else first
  | .python => firstPiece '.' module
  | .rust => String.ofList (trimChars (firstPathSegment (dropPathMarks module.toList)))
  | _ => module

/-- Whether a module is part of the same project by the way it is named. -/
def isLocalModule (module : String) (l : Language) : Bool :=
  match l with
  | .javaScript | .typeScript => hasStart module "." || hasStart module "/"
  | .python => hasStart module "."
  | .rust => ["crate", "self", "super"].contains (packageRoot module l)
  | _ => false

/-! ## Categories -/

/-- Packages by what they are for. -/
def knownPackages : List (LibraryCategory × List String) :=
  [ (.framework,
      ["react", "react-dom", "next", "vue", "@angular/core", "svelte", "express", "koa",
       "fastify", "@nestjs/core", "django", "flask", "fastapi", "tornado", "org.springframework",
       "github.com/gin-gonic/gin", "github.com/labstack/echo", "github.com/gofiber/fiber",
       "actix_web", "rocket", "axum"]),
    (.testing,
      ["jest", "@jest/globals", "mocha", "chai", "vitest", "sinon", "@testing-library/react",
       "pytest", "unittest", "nose", "hypothesis", "org.junit", "org.mockito", "testing",
       "github.com/stretchr/testify", "proptest"]),
    (.database,
      ["mongoose", "mongodb", "pg", "mysql", "mysql2", "sqlite3", "sequelize", "typeorm",
       "@prisma/client", "knex", "redis", "ioredis", "sqlalchemy", "psycopg2", "pymongo",
       "database/sql", "gorm.io/gorm", "java.sql", "sqlx", "diesel", "rusqlite"]),
    (.ui,
      ["tkinter", "PyQt5", "PySide6", "kivy", "@mui/material", "styled-components", "antd",
       "javax.swing", "java.awt", "fyne.io/fyne", "egui", "gtk"]),
    (.utility,
      ["lodash", "underscore", "axios", "moment", "dayjs", "uuid", "chalk", "commander", "yargs",
       "dotenv", "requests", "numpy", "pandas", "scipy", "click", "pydantic",
       "github.com/spf13/cobra", "com.google.gson", "com.google.common", "org.apache.commons",
       "serde", "serde_json", "regex", "rand", "anyhow", "thiserror", "clap", "tokio",
       "itertools"])]

/-- Whether a package is named, or a module is the named one or a part of it. -/
def isPartOf (module package key : String) : Bool :=
  package == key || module == key
    || (afterStart? module key).any fun rest => hasStart rest "/" || hasStart rest "."

/-- The category of the first known package that the module belongs to. -/
def knownCategory? (module package : String) : Option LibraryCategory :=
  (knownPackages.find? fun (_, keys) => keys.any (isPartOf module package)).map (·.1)

/-- Words in the name of a package that tell what it is for. -/
def tellingWords : List (LibraryCategory × List String) :=
  [(.testing, ["test", "tests", "testing", "spec", "mock", "mocks"]),
   (.database, ["sql", "db", "database", "mongo", "redis", "orm", "postgres"]),
   (.ui, ["ui", "widget", "widgets", "gui", "css", "style"]),
   (.framework, ["framework", "web", "server"]),
   (.utility, ["helpers", "tools", "toolkit"])]

/-- The category that the words of a package name tell. -/
def guessedCategory? (package : String) : Option LibraryCategory :=
  let words := ((splitWhere (!·.isAlphanum) package).filter (!·.isEmpty)).map lowerAscii
  (tellingWords.find? fun (_, telling) => words.any telling.contains).map (·.1)

/-! ## Standard libraries -/

/-- Modules of the JavaScript run time. -/
def nodeModules : List String :=
  ["fs", "path", "http", "https", "os", "util", "events", "stream", "crypto", "url",
   "querystring", "child_process", "assert", "buffer", "zlib", "net", "readline", "dns",
   "cluster", "worker_threads", "process", "timers"]

/-- Modules of the Python standard library. -/
def pythonModules : List String :=
  ["os", "sys", "re", "json", "math", "random", "time", "datetime", "collections", "itertools",
   "functools", "typing", "pathlib", "subprocess", "logging", "asyncio", "threading", "csv", "io",
   "argparse", "dataclasses", "abc", "copy", "string", "hashlib", "urllib", "socket", "heapq",
   "bisect", "enum", "shutil", "tempfile", "glob", "pickle", "statistics", "operator",
   "contextlib", "uuid", "decimal", "fractions", "queue", "multiprocessing", "http", "email",
   "textwrap", "pprint", "traceback"]

/-- Headers of the C standard library. -/
def cHeaders : List String :=
  ["stdio.h", "stdlib.h", "string.h", "math.h", "stdbool.h", "stdint.h", "ctype.h", "time.h",
   "assert.h", "limits.h", "errno.h", "signal.h", "stddef.h", "stdarg.h", "float.h", "locale.h",
   "setjmp.h", "unistd.h"]

/-- Whether a module comes with its language. -/
def isStandard (module package : String) : Language → Bool
  | .javaScript | .typeScript => nodeModules.contains package
  | .python => pythonModules.contains package
  | .go => !(firstPiece '/' module).toList.contains '.'
  | .java | .kotlin => hasStart module "java." || hasStart module "javax."
  | .rust => ["std", "core", "alloc"].contains package
  | .c | .cpp => cHeaders.contains module
  | _ => false

/-- What a module is for. -/
def categorize (module package : String) (l : Language) : LibraryCategory :=
  match knownCategory? module package with
  | some c => c
  | none =>
    if hasStart module "node:" then .standardLibrary
    else
      match guessedCategory? package with
      | some c => c
      | none => if isStandard module package l then .standardLibrary else .unknown

/-- The tool that installs packages for a language. -/
def packageManager? : Language → Option String
  | .javaScript | .typeScript => some "npm"
  | .python => some "pip"
  | .go => some "go modules"
  | .rust => some "cargo"
  | .java | .kotlin => some "maven"
  | .ruby => some "gem"
  | .php => some "composer"
  | .cSharp => some "nuget"
  | _ => none

end Library

end CodeProfile
