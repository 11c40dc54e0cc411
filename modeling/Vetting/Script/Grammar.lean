import Vetting.Grammar.Rule

/-! The grammar of scripts. It accepts the current language together with a few forms that only its
predecessor had (a print statement, an exec statement, `<>` as a comparison, a comma in an except
clause), so that these can be named when they are refused. Line ends and indentation are tokens. -/

namespace Vetting.Script

open Vetting.Grammar
open Vetting.Grammar.Rule (optional many sepBy1 commaSep1)

/-- A token. -/
private def tok (name : String) : Rule := .token name

/-- A reference to a rule. -/
private def ref (name : String) : Rule := .ref name

/-- The rules of statements on one line. -/
def statementsRules : List (String × Rule) := [
  ("module", many (ref "_statement")),
  ("_statement", .choice [ref "_simple_statements", ref "_compound_statement"]),
  ("_simple_statements",
    .seq [sepBy1 ";" (ref "_simple_statement"), optional (tok ";"), tok "_newline"]),
  ("_simple_statement",
    .choice [
      ref "future_import_statement", ref "import_statement", ref "import_from_statement",
      ref "print_statement", ref "assert_statement", ref "expression_statement",
      ref "return_statement", ref "delete_statement", ref "raise_statement",
      ref "pass_statement", ref "break_statement", ref "continue_statement",
      ref "global_statement", ref "nonlocal_statement", ref "exec_statement",
      ref "type_alias_statement"]),
  ("import_statement", .seq [tok "import", ref "_import_list"]),
  ("import_prefix", .many1 (tok ".")),
  ("relative_import", .seq [ref "import_prefix", optional (ref "dotted_name")]),
  ("future_import_statement",
    .seq [
      tok "from", tok "__future__", tok "import",
      .choice [ref "_import_list", .seq [tok "(", ref "_import_list", tok ")"]]]),
  ("import_from_statement",
    .seq [
      tok "from", .label "module_name" (.choice [ref "relative_import", ref "dotted_name"]),
      tok "import",
      .choice [
        ref "wildcard_import", ref "_import_list", .seq [tok "(", ref "_import_list", tok ")"]]]),
  ("_import_list",
    .seq [
      commaSep1 (.label "name" (.choice [ref "dotted_name", ref "aliased_import"])),
      optional (tok ",")]),
  ("aliased_import", .seq [.label "name" (ref "dotted_name"), tok "as", tok "identifier"]),
  ("wildcard_import", tok "*"),
  ("print_statement",
    .choice [
      .prec 1 none (
        .seq [
          tok "print", ref "chevron",
          many (.seq [tok ",", .label "argument" (ref "expression")]), optional (tok ",")]),
      .prec (-3) none (
        .dynamic (-1) (
          .seq [
            tok "print", commaSep1 (.label "argument" (ref "expression")), optional (tok ",")]))]),
  ("chevron", .seq [tok ">>", ref "expression"]),
  ("assert_statement", .seq [tok "assert", commaSep1 (ref "expression")]),
  ("expression_statement",
    .choice [
      ref "expression", .seq [commaSep1 (ref "expression"), optional (tok ",")],
      ref "assignment", ref "augmented_assignment", ref "yield"]),
  ("named_expression", .seq [ref "_named_expression_lhs", tok ":=", ref "expression"]),
  ("_named_expression_lhs", .choice [tok "identifier", ref "keyword_identifier"]),
  ("return_statement", .seq [tok "return", optional (ref "_expressions")]),
  ("delete_statement", .seq [tok "del", ref "_expressions"]),
  ("_expressions", .choice [ref "expression", ref "expression_list"]),
  ("raise_statement",
    .seq [
      tok "raise", optional (ref "_expressions"), optional (.seq [tok "from", ref "expression"])]),
  ("pass_statement", .prec 0 (some .left) (tok "pass")),
  ("break_statement", .prec 0 (some .left) (tok "break")),
  ("continue_statement", .prec 0 (some .left) (tok "continue"))
]

/-- The rules of compound statements, definitions and their parts. -/
def blocksRules : List (String × Rule) := [
  ("_compound_statement",
    .choice [
      ref "if_statement", ref "for_statement", ref "while_statement", ref "try_statement",
      ref "with_statement", ref "function_definition", ref "class_definition",
      ref "decorated_definition", ref "match_statement"]),
  ("if_statement",
    .seq [
      tok "if", ref "expression", tok ":", ref "_suite",
      many (.label "alternative" (ref "elif_clause")), optional (ref "else_clause")]),
  ("elif_clause", .seq [tok "elif", ref "expression", tok ":", ref "_suite"]),
  ("else_clause", .seq [tok "else", tok ":", ref "_suite"]),
  ("match_statement",
    .seq [
      tok "match", commaSep1 (.label "subject" (ref "expression")), optional (tok ","), tok ":",
      .renamed "block" (ref "_match_block")]),
  ("_match_block",
    .choice [
      .seq [tok "_indent", many (.label "alternative" (ref "case_clause")), tok "_dedent"],
      tok "_newline"]),
  ("case_clause",
    .seq [
      tok "case", commaSep1 (ref "case_pattern"), optional (tok ","), optional (ref "if_clause"),
      tok ":", ref "_suite"]),
  ("for_statement",
    .seq [
      optional (tok "async"), tok "for", ref "_left_hand_side", tok "in", ref "_expressions",
      tok ":", ref "_suite", optional (ref "else_clause")]),
  ("while_statement",
    .seq [tok "while", ref "expression", tok ":", ref "_suite", optional (ref "else_clause")]),
  ("try_statement",
    .seq [
      tok "try", tok ":", ref "_suite",
      .choice [
        .seq [
          .many1 (ref "except_clause"), optional (ref "else_clause"),
          optional (ref "finally_clause")],
        .seq [
          .many1 (ref "except_group_clause"), optional (ref "else_clause"),
          optional (ref "finally_clause")],
        ref "finally_clause"]]),
  ("except_clause",
    .seq [
      tok "except",
      optional (
        .seq [ref "expression", optional (.seq [.choice [tok "as", tok ","], ref "expression"])]),
      tok ":", ref "_suite"]),
  ("except_group_clause",
    .seq [
      tok "except*", .seq [ref "expression", optional (.seq [tok "as", ref "expression"])],
      tok ":", ref "_suite"]),
  ("finally_clause", .seq [tok "finally", tok ":", ref "_suite"]),
  ("with_statement",
    .seq [optional (tok "async"), tok "with", ref "with_clause", tok ":", ref "_suite"]),
  ("with_clause",
    .choice [
      .seq [commaSep1 (ref "with_item"), optional (tok ",")],
      .seq [tok "(", commaSep1 (ref "with_item"), optional (tok ","), tok ")"]]),
  ("with_item", .dynamic 1 (.seq [ref "expression"])),
  ("function_definition",
    .seq [
      optional (tok "async"), tok "def", .label "name" (tok "identifier"),
      optional (ref "type_parameter"), ref "parameters", optional (.seq [tok "->", ref "type"]),
      tok ":", ref "_suite"]),
  ("parameters", .seq [tok "(", optional (ref "_parameters"), tok ")"]),
  ("lambda_parameters", ref "_parameters"),
  ("list_splat", .seq [tok "*", ref "expression"]),
  ("dictionary_splat", .seq [tok "**", ref "expression"]),
  ("global_statement", .seq [tok "global", commaSep1 (tok "identifier")]),
  ("nonlocal_statement", .seq [tok "nonlocal", commaSep1 (tok "identifier")]),
  ("exec_statement",
    .seq [tok "exec", ref "string", optional (.seq [tok "in", commaSep1 (ref "expression")])]),
  ("type_alias_statement", .dynamic 1 (.seq [tok "type", ref "type", tok "=", ref "type"])),
  ("class_definition",
    .seq [
      tok "class", .label "name" (tok "identifier"), optional (ref "type_parameter"),
      optional (ref "argument_list"), tok ":", ref "_suite"]),
  ("type_parameter", .seq [tok "[", commaSep1 (ref "type"), optional (tok ","), tok "]"]),
  ("parenthesized_list_splat",
    .prec 1 none (
      .seq [
        tok "(",
        .choice [
          .renamed "parenthesized_expression" (ref "parenthesized_list_splat"), ref "list_splat"],
        tok ")"])),
  ("argument_list",
    .seq [
      tok "(",
      optional (
        commaSep1 (.choice [ref "expression", ref "list_splat", ref "dictionary_splat", .renamed "parenthesized_expression" (ref "parenthesized_list_splat"), ref "keyword_argument"])),
      optional (tok ","), tok ")"]),
  ("decorated_definition",
    .seq [.many1 (ref "decorator"), .choice [ref "class_definition", ref "function_definition"]]),
  ("decorator", .seq [tok "@", ref "expression", tok "_newline"]),
  ("_suite",
    .choice [
      .renamed "block" (ref "_simple_statements"), .seq [tok "_indent", ref "block"],
      .renamed "block" (tok "_newline")]),
  ("block", .seq [many (ref "_statement"), tok "_dedent"]),
  ("expression_list",
    .prec 0 (some .right) (
      .seq [
        ref "expression",
        .choice [tok ",", .seq [.many1 (.seq [tok ",", ref "expression"]), optional (tok ",")]]])),
  ("dotted_name", .prec 1 none (sepBy1 "." (tok "identifier")))
]

/-- The rules of patterns and parameters. -/
def patternsRules : List (String × Rule) := [
  ("case_pattern",
    .prec 1 none (
      .choice [
        .renamed "as_pattern" (ref "_as_pattern"), ref "keyword_pattern", ref "_simple_pattern"])),
  ("_simple_pattern",
    .prec 1 none (
      .choice [
        ref "class_pattern", ref "splat_pattern", ref "union_pattern",
        .renamed "list_pattern" (ref "_list_pattern"),
        .renamed "tuple_pattern" (ref "_tuple_pattern"), ref "dict_pattern", ref "string",
        ref "concatenated_string", tok "true", tok "false", tok "none",
        .seq [optional (tok "-"), .choice [tok "integer", tok "float"]], ref "complex_pattern",
        ref "dotted_name", tok "_"])),
  ("_as_pattern", .seq [ref "case_pattern", tok "as", tok "identifier"]),
  ("union_pattern",
    .prec 0 (some .right) (
      .seq [
        ref "_simple_pattern",
        .many1 (.prec 0 (some .left) (.seq [tok "|", ref "_simple_pattern"]))])),
  ("_list_pattern",
    .seq [tok "[", optional (.seq [commaSep1 (ref "case_pattern"), optional (tok ",")]), tok "]"]),
  ("_tuple_pattern",
    .seq [tok "(", optional (.seq [commaSep1 (ref "case_pattern"), optional (tok ",")]), tok ")"]),
  ("dict_pattern",
    .seq [
      tok "\x7b",
      optional (
        .seq [
          commaSep1 (.choice [ref "_key_value_pattern", ref "splat_pattern"]),
          optional (tok ",")]),
      tok "\x7d"]),
  ("_key_value_pattern", .seq [ref "_simple_pattern", tok ":", ref "case_pattern"]),
  ("keyword_pattern", .seq [tok "identifier", tok "=", ref "_simple_pattern"]),
  ("splat_pattern",
    .prec 1 none (.seq [.choice [tok "*", tok "**"], .choice [tok "identifier", tok "_"]])),
  ("class_pattern",
    .seq [
      ref "dotted_name", tok "(",
      optional (.seq [commaSep1 (ref "case_pattern"), optional (tok ",")]), tok ")"]),
  ("complex_pattern",
    .prec 1 none (
      .seq [
        optional (tok "-"), .choice [tok "integer", tok "float"], .choice [tok "+", tok "-"],
        .choice [tok "integer", tok "float"]])),
  ("_parameters", .seq [commaSep1 (ref "parameter"), optional (tok ",")]),
  ("_patterns", .seq [commaSep1 (ref "pattern"), optional (tok ",")]),
  ("parameter",
    .choice [
      tok "identifier", ref "typed_parameter", ref "default_parameter",
      ref "typed_default_parameter", ref "list_splat_pattern", ref "tuple_pattern",
      ref "keyword_separator", ref "positional_separator", ref "dictionary_splat_pattern"]),
  ("pattern",
    .choice [
      tok "identifier", ref "keyword_identifier", ref "subscript", ref "attribute",
      ref "list_splat_pattern", ref "tuple_pattern", ref "list_pattern"]),
  ("tuple_pattern", .seq [tok "(", optional (ref "_patterns"), tok ")"]),
  ("list_pattern", .seq [tok "[", optional (ref "_patterns"), tok "]"]),
  ("default_parameter",
    .seq [.choice [tok "identifier", ref "tuple_pattern"], tok "=", ref "expression"]),
  ("typed_default_parameter",
    .prec (-1) none (.seq [tok "identifier", tok ":", ref "type", tok "=", ref "expression"])),
  ("list_splat_pattern",
    .seq [
      tok "*",
      .choice [tok "identifier", ref "keyword_identifier", ref "subscript", ref "attribute"]]),
  ("dictionary_splat_pattern",
    .seq [
      tok "**",
      .choice [tok "identifier", ref "keyword_identifier", ref "subscript", ref "attribute"]]),
  ("as_pattern",
    .prec 0 (some .left) (
      .seq [ref "expression", tok "as", .renamed "as_pattern_target" (ref "expression")]))
]

/-- The rules of operators, assignments and types. -/
def expressionsRules : List (String × Rule) := [
  ("_expression_within_for_in_clause",
    .choice [ref "expression", .renamed "lambda" (ref "lambda_within_for_in_clause")]),
  ("expression",
    .choice [
      ref "comparison_operator", ref "not_operator", ref "boolean_operator", ref "lambda",
      ref "primary_expression", ref "conditional_expression", ref "named_expression",
      ref "as_pattern"]),
  ("primary_expression",
    .choice [
      ref "await", ref "binary_operator", tok "identifier", ref "keyword_identifier",
      ref "string", ref "concatenated_string", tok "integer", tok "float", tok "true",
      tok "false", tok "none", ref "unary_operator", ref "attribute", ref "subscript",
      ref "call", ref "list", ref "list_comprehension", ref "dictionary",
      ref "dictionary_comprehension", ref "set", ref "set_comprehension", ref "tuple",
      ref "parenthesized_expression", ref "generator_expression", tok "ellipsis",
      .renamed "list_splat" (ref "list_splat_pattern")]),
  ("not_operator", .prec 12 none (.seq [tok "not", ref "expression"])),
  ("boolean_operator",
    .choice [
      .prec 11 (some .left) (.seq [ref "expression", tok "and", ref "expression"]),
      .prec 10 (some .left) (.seq [ref "expression", tok "or", ref "expression"])]),
  ("binary_operator",
    .choice [
      .prec 18 (some .left) (.seq [ref "primary_expression", tok "+", ref "primary_expression"]),
      .prec 18 (some .left) (.seq [ref "primary_expression", tok "-", ref "primary_expression"]),
      .prec 19 (some .left) (.seq [ref "primary_expression", tok "*", ref "primary_expression"]),
      .prec 19 (some .left) (.seq [ref "primary_expression", tok "@", ref "primary_expression"]),
      .prec 19 (some .left) (.seq [ref "primary_expression", tok "/", ref "primary_expression"]),
      .prec 19 (some .left) (.seq [ref "primary_expression", tok "%", ref "primary_expression"]),
      .prec 19 (some .left) (
        .seq [ref "primary_expression", tok "//", ref "primary_expression"]),
      .prec 21 (some .right) (
        .seq [ref "primary_expression", tok "**", ref "primary_expression"]),
      .prec 14 (some .left) (.seq [ref "primary_expression", tok "|", ref "primary_expression"]),
      .prec 15 (some .left) (.seq [ref "primary_expression", tok "&", ref "primary_expression"]),
      .prec 16 (some .left) (.seq [ref "primary_expression", tok "^", ref "primary_expression"]),
      .prec 17 (some .left) (
        .seq [ref "primary_expression", tok "<<", ref "primary_expression"]),
      .prec 17 (some .left) (
        .seq [ref "primary_expression", tok ">>", ref "primary_expression"])]),
  ("unary_operator",
    .prec 20 none (.seq [.choice [tok "+", tok "-", tok "~"], ref "primary_expression"])),
  ("comparison_operator",
    .prec 13 (some .left) (
      .seq [
        ref "primary_expression",
        .many1 (
          .seq [
            .choice [
              tok "<", tok "<=", tok "==", tok "!=", tok ">=", tok ">", tok "<>", tok "in",
              .renamed "not in" (.seq [tok "not", tok "in"]), tok "is",
              .renamed "is not" (.seq [tok "is", tok "not"])],
            ref "primary_expression"])])),
  ("lambda",
    .prec (-2) none (
      .seq [tok "lambda", optional (ref "lambda_parameters"), tok ":", ref "expression"])),
  ("lambda_within_for_in_clause",
    .seq [
      tok "lambda", optional (ref "lambda_parameters"), tok ":",
      ref "_expression_within_for_in_clause"]),
  ("assignment",
    .seq [
      ref "_left_hand_side",
      .choice [
        .seq [tok "=", ref "_right_hand_side"], .seq [tok ":", .label "type" (ref "type")],
        .seq [tok ":", .label "type" (ref "type"), tok "=", ref "_right_hand_side"]]]),
  ("augmented_assignment",
    .seq [
      ref "_left_hand_side",
      .choice [
        tok "+=", tok "-=", tok "*=", tok "/=", tok "@=", tok "//=", tok "%=", tok "**=",
        tok ">>=", tok "<<=", tok "&=", tok "^=", tok "|="],
      ref "_right_hand_side"]),
  ("_left_hand_side", .choice [ref "pattern", ref "pattern_list"]),
  ("pattern_list",
    .seq [
      ref "pattern",
      .choice [tok ",", .seq [.many1 (.seq [tok ",", ref "pattern"]), optional (tok ",")]]]),
  ("_right_hand_side",
    .choice [
      ref "expression", ref "expression_list", ref "assignment", ref "augmented_assignment",
      ref "pattern_list", ref "yield"]),
  ("yield",
    .prec 0 (some .right) (
      .seq [
        tok "yield",
        .choice [.seq [tok "from", ref "expression"], optional (ref "_expressions")]])),
  ("attribute", .prec 22 none (.seq [ref "primary_expression", tok ".", tok "identifier"])),
  ("subscript",
    .prec 22 none (
      .seq [
        ref "primary_expression", tok "[",
        commaSep1 (.label "subscript" (.choice [ref "expression", ref "slice"])),
        optional (tok ","), tok "]"])),
  ("slice",
    .seq [
      optional (ref "expression"), tok ":", optional (ref "expression"),
      optional (.seq [tok ":", optional (ref "expression")])]),
  ("call",
    .prec 22 none (
      .seq [ref "primary_expression", .choice [ref "generator_expression", ref "argument_list"]])),
  ("typed_parameter",
    .prec (-1) none (
      .seq [
        .choice [tok "identifier", ref "list_splat_pattern", ref "dictionary_splat_pattern"],
        tok ":", ref "type"])),
  ("type",
    .choice [
      ref "expression", ref "splat_type", ref "generic_type", ref "union_type",
      ref "constrained_type", ref "member_type"]),
  ("splat_type", .prec 1 none (.seq [.choice [tok "*", tok "**"], tok "identifier"])),
  ("generic_type", .prec 1 none (.seq [tok "identifier", ref "type_parameter"])),
  ("union_type", .prec 0 (some .left) (.seq [ref "type", tok "|", ref "type"])),
  ("constrained_type", .prec 0 (some .right) (.seq [ref "type", tok ":", ref "type"])),
  ("member_type", .seq [ref "type", tok ".", tok "identifier"]),
  ("keyword_argument",
    .seq [.choice [tok "identifier", ref "keyword_identifier"], tok "=", ref "expression"])
]

/-- The rules of displays, comprehensions and strings. -/
def literalsRules : List (String × Rule) := [
  ("list", .seq [tok "[", optional (ref "_collection_elements"), tok "]"]),
  ("set", .seq [tok "\x7b", ref "_collection_elements", tok "\x7d"]),
  ("tuple", .seq [tok "(", optional (ref "_collection_elements"), tok ")"]),
  ("dictionary",
    .seq [
      tok "\x7b", optional (commaSep1 (.choice [ref "pair", ref "dictionary_splat"])),
      optional (tok ","), tok "\x7d"]),
  ("pair", .seq [ref "expression", tok ":", ref "expression"]),
  ("list_comprehension", .seq [tok "[", ref "expression", ref "_comprehension_clauses", tok "]"]),
  ("dictionary_comprehension",
    .seq [tok "\x7b", ref "pair", ref "_comprehension_clauses", tok "\x7d"]),
  ("set_comprehension",
    .seq [tok "\x7b", ref "expression", ref "_comprehension_clauses", tok "\x7d"]),
  ("generator_expression",
    .seq [tok "(", ref "expression", ref "_comprehension_clauses", tok ")"]),
  ("_comprehension_clauses",
    .seq [ref "for_in_clause", many (.choice [ref "for_in_clause", ref "if_clause"])]),
  ("parenthesized_expression",
    .prec 1 none (.seq [tok "(", .choice [ref "expression", ref "yield"], tok ")"])),
  ("_collection_elements",
    .seq [
      commaSep1 (.choice [ref "expression", ref "yield", ref "list_splat", ref "parenthesized_list_splat"]),
      optional (tok ",")]),
  ("for_in_clause",
    .prec 0 (some .left) (
      .seq [
        optional (tok "async"), tok "for", ref "_left_hand_side", tok "in",
        commaSep1 (ref "_expression_within_for_in_clause"), optional (tok ",")])),
  ("if_clause", .seq [tok "if", ref "expression"]),
  ("conditional_expression",
    .prec (-1) (some .right) (
      .seq [ref "expression", tok "if", ref "expression", tok "else", ref "expression"])),
  ("concatenated_string", .seq [ref "string", .many1 (ref "string")]),
  ("string",
    .seq [
      tok "string_start", many (.choice [ref "interpolation", ref "string_content"]),
      tok "string_end"]),
  ("string_content",
    .prec 0 (some .right) (
      .many1 (
        .choice [
          tok "escape_interpolation", tok "escape_sequence", tok "_not_escape_sequence",
          tok "_string_content"]))),
  ("interpolation",
    .seq [
      tok "\x7b", ref "_f_expression", optional (tok "="), optional (tok "type_conversion"),
      optional (ref "format_specifier"), tok "\x7d"]),
  ("_f_expression",
    .choice [ref "expression", ref "expression_list", ref "pattern_list", ref "yield"]),
  ("format_specifier",
    .seq [
      tok ":",
      many (.choice [tok "_format_text", .renamed "format_expression" (ref "interpolation")])]),
  ("keyword_identifier",
    .choice [
      .prec (-3) none (
        .renamed "identifier" (.choice [tok "print", tok "exec", tok "async", tok "await"])),
      .renamed "identifier" (.choice [tok "type", tok "match"])]),
  ("await", .prec 20 none (.seq [tok "await", ref "primary_expression"])),
  ("positional_separator", tok "/"),
  ("keyword_separator", tok "*")
]

/-- The grammar of scripts. -/
def grammar : RuleBook where
  rules :=
    statementsRules ++ blocksRules ++ patternsRules ++ expressionsRules ++ literalsRules
  inlined :=
    ["_simple_statement", "_compound_statement", "_suite", "_expressions", "_left_hand_side",
      "keyword_identifier"]
  hidden :=
    ["_simple_statement", "_compound_statement", "expression", "primary_expression", "pattern",
      "parameter"]
  layout :=
    ["_newline", "_indent", "_dedent", "string_start", "_string_content", "escape_interpolation",
      "string_end"]
  extras := ["comment", "line_continuation"]

end Vetting.Script
