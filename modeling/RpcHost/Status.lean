/-!
The outcome of an administrative operation: success, or the one reason why not.
-/
namespace RpcHost

inductive Status where
  | ok
  | invalidMessage
  | invalidParams
  | serviceNotFound
  | methodNotFound
  | internalError
  | alreadyExported
  | noProvider
  | registryNotFound
  | invalidRegistry
  | configError
  deriving DecidableEq, Repr

namespace Status

def number : Status → Nat
  | ok => 0
  | invalidMessage => 1
  | invalidParams => 2
  | serviceNotFound => 3
  | methodNotFound => 4
  | internalError => 5
  | alreadyExported => 6
  | noProvider => 7
  | registryNotFound => 8
  | invalidRegistry => 9
  | configError => 10

def all : List Status :=
  [ok, invalidMessage, invalidParams, serviceNotFound, methodNotFound, internalError,
    alreadyExported, noProvider, registryNotFound, invalidRegistry, configError]

def ofNumber? (n : Int) : Option Status := all.find? fun status => (status.number : Int) == n

def reason : Status → String
  | ok => "成功处理！"
  | invalidMessage => "无效消息"
  | invalidParams => "无效的Rpc参数！"
  | serviceNotFound => "没有找到对应的服务！"
  | methodNotFound => "没有找到对应的方法！"
  | internalError => "内部错误！"
  | alreadyExported => "服务已经导出！"
  | noProvider => "没有可以导出的provider！"
  | registryNotFound => "服务地址中没有注册中心配置！"
  | invalidRegistry => "无效的注册中心！"
  | configError => "配置错误！"

def reasonOfNumber (n : Int) : String :=
  match ofNumber? n with
  | some status => status.reason
  | none => "未知错误！"

end Status

end RpcHost
