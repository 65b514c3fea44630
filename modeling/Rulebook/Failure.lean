import Rulebook.Token

namespace Rulebook

inductive SyntaxFault where
  | empty
  | trailing (found : Token)
  | unexpected (found : Token)
  | expectedClosing (found : Token)
  | expectedName (found : Token)
  | unclosedIndex
  | badNumber (lexeme : String)
  | tooDeep (limit : Nat)
  | described (message : String)
  deriving DecidableEq, Repr

structure SyntaxError where
  fault : SyntaxFault
  position : Nat
  deriving DecidableEq, Repr

/-- What an operator asks of its operands. One that a host adds tells it in words of its own. -/
inductive Expectation where
  | numeric | boolean | numericOrText
  | described (text : String)
  deriving DecidableEq, Repr

inductive ArithmeticFault where
  | zeroDivisor | notANumber | infinite
  | described (message : String)
  deriving DecidableEq, Repr

inductive PathFault where
  | blank
  | emptySegment
  | badSubscript (segment : String)
  | notAnObject (parent : String)
  | missing (key : String)
  | notAnArray (key : String)
  | badIndex (index : String)
  | outOfRange (key : String) (index : Int) (length : Nat)
  | nullElement (segment : String)
  | container
  | namedContainer
  | described (reason : String)
  deriving DecidableEq, Repr

inductive PolicyFault where
  | noRules (policy : String)
  | blankRuleName
  | blankExpression (rule : String)
  | missingDependency (rule dependency : String)
  | unordered (rules : List String)
  | described (message : String)
  deriving DecidableEq, Repr

inductive Failure where
  | malformed (error : SyntaxError)
  | unsupportedOperator (symbol arity : String)
  | typeMismatch (operator : String) (expected : Expectation) (actual : String)
  | arithmetic (operator : String) (fault : ArithmeticFault)
  | overflow (operator : String)
  | unknownName (name : String)
  | invalidPath (path : String) (fault : PathFault)
  | missingFeature (path : String)
  | evaluation (expression : String) (cause : Failure)
  | invalidPolicy (fault : PolicyFault)
  | circularDependency (route : List String)
  deriving DecidableEq, Repr

def joined (separator : String) (texts : List String) : String :=
  String.join (texts.intersperse separator)

theorem joined_eq_intercalate (separator : String) (texts : List String) :
    joined separator texts = separator.intercalate texts := by
  induction texts with
  | nil => rfl
  | cons text rest ih =>
      cases rest with
      | nil => simp [joined]
      | cons next further =>
          rw [String.intercalate_cons_cons, ← ih]
          simp [joined, String.join_cons, String.append_assoc]

theorem append_ne_empty {opening rest : String} (said : opening ≠ "") : opening ++ rest ≠ "" := by
  intro silent
  exact said (String.append_eq_empty_iff.mp silent).1

def SyntaxFault.message : SyntaxFault → String
  | .empty => "空表达式"
  | .trailing found => "表达式后存在多余的 token: " ++ found.render
  | .unexpected found => "意外的 token: " ++ found.render
  | .expectedClosing found => "期望 ')'，实际为 " ++ found.render
  | .expectedName found => "'.' 之后需要标识符，实际为 " ++ found.render
  | .unclosedIndex => "特征路径下标缺少 ']'"
  | .badNumber lexeme => "无效的数字: " ++ lexeme
  | .tooDeep limit => "表达式嵌套超过最大深度 " ++ toString limit
  | .described message => message

def Expectation.text : Expectation → String
  | .numeric => "数值"
  | .boolean => "布尔值"
  | .numericOrText => "数值或字符串"
  | .described text => text

def ArithmeticFault.message : ArithmeticFault → String
  | .zeroDivisor => "除数为零"
  | .notANumber => "结果为 NaN"
  | .infinite => "结果为无穷大"
  | .described message => message

def PathFault.reason : PathFault → String
  | .blank => "路径为空"
  | .emptySegment => "路径段为空"
  | .badSubscript segment => "无效的下标语法: " ++ segment
  | .notAnObject parent => "'" ++ parent ++ "' 不是嵌套对象"
  | .missing key => "'" ++ key ++ "' 不存在或为 null，无法继续解析"
  | .notAnArray key => "'" ++ key ++ "' 不是数组"
  | .badIndex index => "无效的数组下标: " ++ index
  | .outOfRange key index length =>
    "数组 '" ++ key ++ "' 下标 " ++ toString index ++ " 越界 (长度 " ++ toString length ++ ")"
  | .nullElement segment => "数组元素 '" ++ segment ++ "' 为 null，无法继续解析"
  | .container => "路径指向对象或数组，而不是标量值"
  | .namedContainer => "标识符指向对象或数组，而不是标量值"
  | .described reason => reason

def PolicyFault.message : PolicyFault → String
  | .noRules policy => "策略 '" ++ policy ++ "' 不包含任何规则"
  | .blankRuleName => "规则名称不能为空"
  | .blankExpression rule => "规则 '" ++ rule ++ "' 的表达式不能为空"
  | .missingDependency rule dependency =>
    "规则 '" ++ rule ++ "' 依赖不存在的规则 '" ++ dependency ++ "'"
  | .unordered rules => "无法确定执行顺序，剩余规则: " ++ joined ", " rules
  | .described message => message

namespace Failure

def code : Failure → String
  | .malformed _ => "SYNTAX_ERROR"
  | .unsupportedOperator .. => "UNSUPPORTED_OPERATOR"
  | .typeMismatch .. => "TYPE_MISMATCH"
  | .arithmetic .. => "ARITHMETIC_ERROR"
  | .overflow _ => "ARITHMETIC_OVERFLOW"
  | .unknownName _ => "UNKNOWN_IDENTIFIER"
  | .invalidPath .. => "INVALID_PATH"
  | .missingFeature _ => "MISSING_FEATURE"
  | .evaluation .. => "EVALUATION_ERROR"
  | .invalidPolicy _ => "POLICY_VALIDATION_ERROR"
  | .circularDependency _ => "CIRCULAR_DEPENDENCY"

def message : Failure → String
  | .malformed error =>
    "语法错误 (位置 " ++ toString error.position ++ "): " ++ error.fault.message
  | .unsupportedOperator symbol arity => "不支持的操作符: " ++ symbol ++ " (" ++ arity ++ ")"
  | .typeMismatch operator expected actual =>
    "类型不匹配: 操作符 '" ++ operator ++ "' 需要 " ++ expected.text ++ ", 实际 " ++ actual
  | .arithmetic operator fault => "算术错误: 操作符 '" ++ operator ++ "' " ++ fault.message
  | .overflow operator => "算术溢出: 操作符 '" ++ operator ++ "' 的 64 位整数运算溢出"
  | .unknownName name => "未知标识符: " ++ name
  | .invalidPath path fault => "无效的路径 '" ++ path ++ "': " ++ fault.reason
  | .missingFeature path => "缺少必需的特征: " ++ path
  | .evaluation expression cause => "表达式求值失败 '" ++ expression ++ "': " ++ cause.message
  | .invalidPolicy fault => "策略校验失败: " ++ fault.message
  | .circularDependency route => "检测到循环依赖: " ++ joined " -> " route

theorem message_ne_empty (failure : Failure) : failure.message ≠ "" := by
  cases failure <;> repeat apply append_ne_empty
  all_goals decide

/-- The error without the expressions that it was met in. -/
def root : Failure → Failure
  | .evaluation _ cause => cause.root
  | error => error

def stopsPolicy : Failure → Bool
  | .invalidPolicy _ | .circularDependency _ => true
  | _ => false

def within (error : Failure) (expression : String) : Failure :=
  .evaluation expression error

end Failure

abbrev Result (α : Type) := Except Failure α

end Rulebook
